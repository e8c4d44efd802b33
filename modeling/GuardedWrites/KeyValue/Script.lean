/-!
# Server-side scripts

Judging a request reads, prunes, counts and writes, and nothing may come in between, so each
algorithm is one script that runs on the server. The clock reading is an argument: the server and
the slots in process then judge by the same clock.
-/

namespace GuardedWrites.KeyValue

/-- The scripts that the server keeps. -/
inductive Script where
  | slidingWindow
  | tokenBucket
deriving DecidableEq

namespace Script

/-- The name of a script. -/
def name : Script → String
  | .slidingWindow => "sliding_window"
  | .tokenBucket => "token_bucket"

/-- The lines of a script. That of the window is given the clock reading, the length of the window
and the limit in milliseconds and requests, and a member to record; its answer holds whether the
request is admitted, how many are left, and the wait in milliseconds. That of the bucket is given
the clock reading, the capacity, the refill rate and the expiry; its answer holds whether the
request is admitted, the tokens, and the wait in seconds. -/
def lines : Script → List String
  | .slidingWindow => [
    "local now = tonumber(ARGV[1])",
    "local window = tonumber(ARGV[2])",
    "local max = tonumber(ARGV[3])",
    "",
    "redis.call('ZREMRANGEBYSCORE', KEYS[1], '-inf', now - window)",
    "local count = redis.call('ZCARD', KEYS[1])",
    "",
    "if count < max then",
    "    redis.call('ZADD', KEYS[1], now, ARGV[4])",
    "    redis.call('PEXPIRE', KEYS[1], window)",
    "    return \x7b1, max - count - 1, 0\x7d",
    "end",
    "",
    "local retry = 0",
    "local oldest = redis.call('ZRANGE', KEYS[1], 0, 0, 'WITHSCORES')",
    "if oldest[2] then",
    "    retry = math.max(0, tonumber(oldest[2]) + window - now)",
    "end",
    "return \x7b0, 0, retry\x7d"]
  | .tokenBucket => [
    "local now = tonumber(ARGV[1])",
    "local capacity = tonumber(ARGV[2])",
    "local rate = tonumber(ARGV[3])",
    "",
    "local state = redis.call('HMGET', KEYS[1], 'tokens', 'ts')",
    "local tokens = tonumber(state[1])",
    "local ts = tonumber(state[2])",
    "if tokens == nil or ts == nil then",
    "    tokens = capacity",
    "    ts = now",
    "end",
    "",
    "tokens = math.min(capacity, tokens + math.max(0, now - ts) / 1000 * rate)",
    "",
    "if tokens + 1e-9 >= 1 then",
    "    tokens = math.max(0, tokens - 1)",
    "    redis.call('HSET', KEYS[1], 'tokens', tostring(tokens), " ++
      "'ts', tostring(math.max(now, ts)))",
    "    redis.call('PEXPIRE', KEYS[1], ARGV[4])",
    "    return \x7b1, tostring(tokens), '0'\x7d",
    "end",
    "",
    "return \x7b0, tostring(tokens), tostring((1 - tokens) / rate)\x7d"]

/-- The text of a script. -/
def text (s : Script) : String := "\n" ++ String.join (s.lines.map fun line => line ++ "\n")

end Script

end GuardedWrites.KeyValue
