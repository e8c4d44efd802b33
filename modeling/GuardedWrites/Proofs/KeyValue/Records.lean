import GuardedWrites.KeyValue.Client
import GuardedWrites.Proofs.Effect.Yields

/-!
# Records on a key-value server

A record that is kept on a server comes back as it was: reading undoes writing, for every key,
status, result and moment from the epoch on. A moment before the epoch cannot be written, and then
nothing is sent.

* `RecordBytes.Reads` — a reader that takes bytes off whatever follows them, with one rule for each
  part of a record;
* `RecordBytes.decode?_encode?` — the bytes of a record are read as that record;
* `Client.records_round_trip` — what a client sends for a record, and what it makes of it when it is
  sent back.
-/

namespace GuardedWrites

/-! ### The parts of a moment -/

namespace Moment

variable {t : Moment}

theorem coe_subsecNanos (t : Moment) : (t.subsecNanos : Int) = t.nanos.fmod nanosPerSecond :=
  Int.toNat_of_nonneg (Int.fmod_nonneg_of_pos _ (by decide))

theorem subsecNanos_lt (t : Moment) : t.subsecNanos < nanosPerSecond := by
  have hlt := Int.fmod_lt_of_pos t.nanos (show (0 : Int) < nanosPerSecond by decide)
  rw [← coe_subsecNanos] at hlt
  exact Int.ofNat_lt.1 hlt

theorem ofParts_parts (t : Moment) : .ofParts t.secs t.subsecNanos = t := by
  rw [ofParts, coe_subsecNanos, secs, Int.fdiv_mul_add_fmod]

end Moment

namespace KeyValue

/-! ### Reading and writing -/

namespace RecordBytes

variable {α : Type} {bs : List UInt8} {n width : Nat} {r : IdempotencyRecord}

/-- The reader takes these bytes off whatever follows them, and tells this value. -/
def Reads (read : List UInt8 → Option (α × List UInt8)) (bs : List UInt8) (a : α) : Prop :=
  ∀ rest, read (bs ++ rest) = some (a, rest)

@[simp] theorem length_littleEndian (width n : Nat) : (littleEndian width n).length = width := by
  induction width generalizing n with
  | zero => rfl
  | succ width ih => rw [littleEndian, List.length_cons, ih]

theorem valueOf_littleEndian (h : n < Nat.pow 256 width) : valueOf (littleEndian width n) = n := by
  induction width generalizing n with
  | zero => exact (Nat.lt_one_iff.1 h).symm
  | succ width ih =>
    have hrest : n / 256 < Nat.pow 256 width := (Nat.div_lt_iff_lt_mul (by decide)).2 h
    have hfirst : (UInt8.ofNat n).toNat = n % 256 := UInt8.toNat_ofNat'
    rw [littleEndian, valueOf, ih hrest, hfirst]
    exact Nat.mod_add_div n 256

theorem reads_take? (bs : List UInt8) : Reads (take? bs.length) bs bs := by
  intro rest
  rw [take?, if_pos (by simp), List.splitAt_eq, List.take_left, List.drop_left]

theorem reads_number? (h : n < Nat.pow 256 width) :
    Reads (number? width) (littleEndian width n) n := by
  intro rest
  have htake := reads_take? (littleEndian width n) rest
  rw [length_littleEndian] at htake
  rw [number?, htake]
  show some (valueOf _, rest) = _
  rw [valueOf_littleEndian h]

theorem reads_block? (h : bs.length < UInt64.size) : Reads block? (block bs) bs := by
  intro rest
  rw [block?, block, List.append_assoc, reads_number? (by exact h), Option.bind_some]
  exact reads_take? bs rest

theorem status?_statusNumber (s : RecordStatus) : status? (statusNumber s) = some s := by
  cases s <;> rfl

theorem statusNumber_lt (s : RecordStatus) : statusNumber s < Nat.pow 256 4 := by
  cases s <;> decide

/-- A moment from the epoch on is put together from its seconds and nanoseconds. -/
theorem moment?_parts {t : Moment} (h : .epoch ≤ t) (hsecs : t.secs < secsLimit) :
    moment? t.secs.toNat t.subsecNanos = some t := by
  have hwhole : (t.secs.toNat : Int) = t.secs := Int.toNat_of_nonneg (Int.fdiv_nonneg h (by decide))
  rw [moment?, Nat.div_eq_of_lt t.subsecNanos_lt, if_pos (by omega), hwhole, Moment.ofParts_parts]

/-- What the record of a program meets: lengths are numbers of 64 bits, and so are the seconds of a
moment with their sign. -/
structure Fits (r : IdempotencyRecord) : Prop where
  key : (Text.bytes r.key).length < UInt64.size
  result : r.result.length < UInt64.size
  storedAt : r.storedAt.secs < secsLimit

/-- The bytes of a record are read as that record, whatever follows them. -/
theorem decode?_encode? (hr : Fits r) (h : encode? r = some bs) (rest : List UInt8) :
    decode? (bs ++ rest) = some r := by
  by_cases hbefore : r.storedAt < .epoch
  · rw [encode?, if_pos hbefore] at h
    exact absurd h (by simp)
  have hepoch : .epoch ≤ r.storedAt := Int.not_lt.1 hbefore
  have hsecs : r.storedAt.secs.toNat < Nat.pow 256 8 := by
    have hlimit : r.storedAt.secs.toNat < secsLimit := (Int.toNat_lt' (by decide)).2 hr.storedAt
    exact Nat.lt_of_lt_of_le hlimit (by decide)
  have hnanos : r.storedAt.subsecNanos < Nat.pow 256 4 :=
    Nat.lt_of_lt_of_le r.storedAt.subsecNanos_lt (by decide)
  rw [encode?, if_neg hbefore] at h
  obtain rfl := Option.some.inj h
  simp only [List.append_assoc]
  refine Option.bind_eq_some_iff.2 ⟨_, reads_block? hr.key _, ?_⟩
  refine Option.bind_eq_some_iff.2 ⟨_, Text.ofBytes?_bytes r.key, ?_⟩
  refine Option.bind_eq_some_iff.2 ⟨_, reads_number? (statusNumber_lt r.status) _, ?_⟩
  refine Option.bind_eq_some_iff.2 ⟨_, status?_statusNumber r.status, ?_⟩
  refine Option.bind_eq_some_iff.2 ⟨_, reads_block? hr.result _, ?_⟩
  refine Option.bind_eq_some_iff.2 ⟨_, reads_number? hsecs _, ?_⟩
  refine Option.bind_eq_some_iff.2 ⟨_, reads_number? hnanos _, ?_⟩
  exact Option.bind_eq_some_iff.2 ⟨_, moment?_parts hepoch hr.storedAt, rfl⟩

end RecordBytes

/-! ### A client and its server -/

/-- A server that replies as it likes, also by what it was sent before, and keeps the commands in
their order. -/
def heard (reply : List Command → Command → Reply) :
    (command : Command) → List Command → Reply × List Command :=
  fun command sent => (reply sent command, sent ++ [command])

namespace Client

open Program

variable {α β σ : Type} {answer : (command : Command) → σ → Reply × σ} {s : σ}
variable {c : Client (Program service)} {r : IdempotencyRecord} {bytes : List UInt8}

/-- A call of a client that asks the server itself is one command, and its reply is in time. -/
theorem call_yields (hc : c.send = ask) (command : Command) (read : Reply → Option α) :
    (c.call command read).Yields answer s fun a s' =>
      a = accept read (answer command s).1 ∧ s' = (answer command s).2 := by
  obtain ⟨config, send, nonce⟩ := c
  obtain rfl : send = ask := hc
  exact fun n => ⟨_, _, n, rfl, rfl, rfl⟩

/-- A request that comes to one call sends one command. -/
theorem request_yields (hc : c.send = ask) {command : Command} {read : Reply → Option α}
    {f : Except Fault α → Except Fault β} {p : Program service (Except Fault β)}
    (hp : p = (c.call command read).bind fun a => .done (f a)) :
    (p.bind fun a => .done (a.mapError Fault.toBackendError)).Yields answer s fun _ s' =>
      s' = (answer command s).2 := by
  have hcall : (c.call command read).Yields answer s _ := call_yields hc command read
  rw [hp, bind_assoc]
  exact hcall.bind fun _ _ h => .done h.2

/-- A request that is refused at once sends nothing. -/
theorem refusal_yields {fault : Fault} {p : Program service (Except Fault β)}
    (hp : p = .done (.error fault)) :
    (p.bind fun a => .done (a.mapError Fault.toBackendError)).Yields answer s fun a s' =>
      a = .error fault.toBackendError ∧ s' = s := by
  rw [hp]
  exact .done ⟨rfl, rfl⟩

/-- A record that can be written is sent in one command. -/
theorem put_yields (hc : c.send = ask) (h : RecordBytes.encode? r = some bytes) (ttl : Span) :
    (c.recordStore (.put r ttl)).Yields answer s fun _ s' =>
      s' = (answer (.put (c.serverKey r.key) bytes (expiryMillis ttl)) s).2 := by
  have hput : c.put r ttl =
      (c.call (.put (c.serverKey r.key) bytes (expiryMillis ttl)) some).bind fun a =>
        .done (a.map fun _ => ()) := by
    rw [put, h]
    rfl
  exact request_yields hc hput

/-- A claim that can be written is sent in one command. -/
theorem putIfAbsent_yields (hc : c.send = ask) (h : RecordBytes.encode? r = some bytes)
    (ttl : Span) :
    (c.recordStore (.putIfAbsent r ttl)).Yields answer s fun _ s' =>
      s' = (answer (.putIfAbsent (c.serverKey r.key) bytes (expiryMillis ttl)) s).2 := by
  have hclaim : c.putIfAbsent r ttl =
      (c.call (.putIfAbsent (c.serverKey r.key) bytes (expiryMillis ttl))
        (Reply.optional? Reply.text?)).bind fun a =>
        .done (a.map Option.isSome) := by
    rw [putIfAbsent, h]
    rfl
  exact request_yields hc hclaim

/-- What cannot be written is refused. -/
theorem put_refused (h : RecordBytes.encode? r = none) (ttl : Span) :
    (c.recordStore (.put r ttl)).Yields answer s fun a s' =>
      a = .error Fault.beforeEpoch.toBackendError ∧ s' = s := by
  have hput : c.put r ttl = .done (.error .beforeEpoch) := by
    rw [put, h]
    rfl
  exact refusal_yields hput

theorem putIfAbsent_refused (h : RecordBytes.encode? r = none) (ttl : Span) :
    (c.recordStore (.putIfAbsent r ttl)).Yields answer s fun a s' =>
      a = .error Fault.beforeEpoch.toBackendError ∧ s' = s := by
  have hclaim : c.putIfAbsent r ttl = .done (.error .beforeEpoch) := by
    rw [putIfAbsent, h]
    rfl
  exact refusal_yields hclaim

/-- The bytes of a record are read as it, in one command. -/
theorem get_yields (hc : c.send = ask) {key : String} (h : RecordBytes.decode? bytes = some r)
    (hreply : (answer (.get (c.serverKey key)) s).1 = .bulk bytes) :
    (c.recordStore (.get key)).Yields answer s fun a s' =>
      a = .ok (some r) ∧ s' = (answer (.get (c.serverKey key)) s).2 := by
  have hread : (c.get key).Yields answer s fun a s' =>
      a = .ok (some r) ∧ s' = (answer (.get (c.serverKey key)) s).2 := by
    refine (call_yields hc _ _).bind ?_
    rintro a s' ⟨rfl, rfl⟩
    have haccept : accept (Reply.optional? Reply.bytes?) (.bulk bytes) = .ok (some bytes) := rfl
    simp only [hreply, haccept, h]
    exact .done ⟨rfl, rfl⟩
  refine hread.bind ?_
  rintro a s' ⟨rfl, rfl⟩
  exact .done ⟨rfl, rfl⟩

/-- **Records come back as they were.** The bytes of a record whose moment is not before the epoch
are sent in one command, both to store it and to claim its key, and when the server sends them back
they are read as that very record. A record from before the epoch is refused as breaking the
protocol, and no command is sent. -/
theorem records_round_trip (hc : c.send = ask) (hr : RecordBytes.Fits r) :
    (.epoch ≤ r.storedAt → ∃ bytes,
      ∀ (reply : List Command → Command → Reply) (sent : List Command),
      (∀ ttl, (c.recordStore (.put r ttl)).Yields (heard reply) sent fun _ sent' =>
        sent' = sent ++ [.put (c.serverKey r.key) bytes (expiryMillis ttl)]) ∧
      (∀ ttl, (c.recordStore (.putIfAbsent r ttl)).Yields (heard reply) sent fun _ sent' =>
        sent' = sent ++ [.putIfAbsent (c.serverKey r.key) bytes (expiryMillis ttl)]) ∧
      (∀ key, reply sent (.get (c.serverKey key)) = .bulk bytes →
        (c.recordStore (.get key)).Yields (heard reply) sent fun a sent' =>
          a = .ok (some r) ∧ sent' = sent ++ [.get (c.serverKey key)])) ∧
    (r.storedAt < .epoch → ∃ text,
      ∀ (reply : List Command → Command → Reply) (sent : List Command) (ttl : Span),
      (c.recordStore (.put r ttl)).Yields (heard reply) sent (fun a sent' =>
        a = .error (.protocol text) ∧ sent' = sent) ∧
      (c.recordStore (.putIfAbsent r ttl)).Yields (heard reply) sent
        (fun a sent' => a = .error (.protocol text) ∧ sent' = sent)) := by
  constructor
  · intro hepoch
    have hencode : RecordBytes.encode? r = some _ := if_neg (Int.not_lt.2 hepoch)
    have hdecode := RecordBytes.decode?_encode? hr hencode []
    rw [List.append_nil] at hdecode
    refine ⟨_, fun reply sent =>
      ⟨put_yields hc hencode, putIfAbsent_yields hc hencode, fun key hreply => ?_⟩⟩
    have hsent : (heard reply (.get (c.serverKey key)) sent).1 = .bulk _ := hreply
    exact get_yields hc hdecode hsent
  · intro hbefore
    have hencode : RecordBytes.encode? r = none := if_pos hbefore
    exact ⟨_, fun _ _ ttl => ⟨put_refused hencode ttl, putIfAbsent_refused hencode ttl⟩⟩

/-- A receipt with a nanosecond in its moment is stored, claimed and read back by a client with the
usual names; one from a nanosecond before the epoch is not sent. -/
theorem receipt_round_trip :
    let c : Client (Program service) := ⟨.standard, ask, .done "n"⟩
    let receipt : IdempotencyRecord := .completed "k" [7] ⟨1000000001⟩
    let early : IdempotencyRecord := .completed "k" [7] ⟨-1⟩
    (∃ bytes, ∀ (reply : List Command → Command → Reply) (sent : List Command),
      (∀ ttl, (c.recordStore (.put receipt ttl)).Yields (heard reply) sent fun _ sent' =>
        sent' = sent ++ [.put "booking-guard:k" bytes (expiryMillis ttl)]) ∧
      (∀ ttl, (c.recordStore (.putIfAbsent receipt ttl)).Yields (heard reply) sent fun _ sent' =>
        sent' = sent ++ [.putIfAbsent "booking-guard:k" bytes (expiryMillis ttl)]) ∧
      (reply sent (.get "booking-guard:k") = .bulk bytes →
        (c.recordStore (.get "k")).Yields (heard reply) sent fun a sent' =>
          a = .ok (some receipt) ∧ sent' = sent ++ [.get "booking-guard:k"])) ∧
    ∃ text, ∀ (reply : List Command → Command → Reply) (sent : List Command) (ttl : Span),
      (c.recordStore (.put early ttl)).Yields (heard reply) sent
        (fun a sent' => a = .error (.protocol text) ∧ sent' = sent) ∧
      (c.recordStore (.putIfAbsent early ttl)).Yields (heard reply) sent
        (fun a sent' => a = .error (.protocol text) ∧ sent' = sent) := by
  intro c receipt early
  have hreceipt : RecordBytes.Fits receipt := ⟨by decide, by decide, by decide⟩
  have hearly : RecordBytes.Fits early := ⟨by decide, by decide, by decide⟩
  obtain ⟨bytes, h⟩ := (records_round_trip (c := c) rfl hreceipt).1 (by decide)
  refine ⟨⟨bytes, fun reply sent => ?_⟩, (records_round_trip (c := c) rfl hearly).2 (by decide)⟩
  obtain ⟨hput, hclaim, hget⟩ := h reply sent
  exact ⟨hput, hclaim, hget "k"⟩

end Client

end KeyValue

end GuardedWrites
