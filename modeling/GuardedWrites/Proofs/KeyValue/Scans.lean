import GuardedWrites.Proofs.KeyValue.Records
import GuardedWrites.Proofs.Rate.Naming
import Mathlib.Data.List.Infix

/-!
# Scans for the keys with a common start

A client that clears the keys with a common start has the server scan for a pattern and deletes what
the scans list. The start may hold characters that are special in a pattern, so what is deleted
hangs on the escapes: the pattern must match the keys that begin with the very text, and no others.

* `Glob.acceptsIn` — a pattern tried out from the left; `Glob.acceptsIn_iff` says that this decides
  what a pattern matches;
* `Glob.matches_startingWith_iff` — the pattern of a start matches exactly the keys that begin with
  it;
* `Sweep` — exchanges in which scans for a pattern list keys, and just these are deleted;
* `Client.clearing_matches_start` — the pattern of a clearing, and what the clearing does with it.
-/

namespace GuardedWrites

namespace KeyValue

namespace Glob

variable {a p s : List Char} {n : Nat}

/-! ### Trying a pattern out -/

/-- Whether a pattern matches a text, tried out from the left: at a star, with every rest of the
text. Each step takes at least a character off the pattern, which is given up when no steps are
left. -/
def acceptsIn : (steps : Nat) → List Char → List Char → Bool
  | _, [], s => s.isEmpty
  | 0, _ :: _, _ => false
  | n + 1, '*' :: p, s => s.tails.any fun t => acceptsIn n p t
  | _ + 1, _ :: _, [] => false
  | n + 1, '?' :: p, _ :: s => acceptsIn n p s
  | n + 1, '[' :: p, c :: s => (classTest p).1 c && acceptsIn n (classTest p).2 s
  | n + 1, '\\' :: q :: p, c :: s => c = q && acceptsIn n p s
  | n + 1, q :: p, c :: s => c = q && acceptsIn n p s

theorem length_ranges_le (p : List Char) : (ranges p).2.length ≤ p.length := by
  fun_induction ranges p with
  | case1 => exact Nat.le_refl 0
  | case2 rest => exact Nat.le_succ rest.length
  | case3 c rest ih => exact Nat.le_trans ih (Nat.le_add_right rest.length 2)
  | case4 a b rest _ _ ih => exact Nat.le_trans ih (Nat.le_add_right rest.length 3)
  | case5 c rest _ _ _ ih => exact Nat.le_succ_of_le ih

theorem length_classTest_le (p : List Char) : (classTest p).2.length ≤ p.length := by
  fun_cases classTest p with
  | case1 rest => exact Nat.le_succ_of_le (length_ranges_le rest)
  | case2 => exact length_ranges_le p

/-- As many steps as the pattern has characters decide what it matches. -/
theorem acceptsIn_iff (h : p.length ≤ n) : acceptsIn n p s = true ↔ Matches p s := by
  fun_induction acceptsIn n p s with
  | case1 n s => rw [matches_nil_iff, List.isEmpty_iff]
  | case2 => exact absurd h (Nat.not_succ_le_zero _)
  | case3 n p s ih =>
    have hrests : ∀ t, acceptsIn n p t = true ↔ Matches p t :=
        fun t => ih t (Nat.le_of_succ_le_succ h)
    rw [List.any_eq_true, matches_anyText_iff]
    constructor
    · rintro ⟨t, ht, haccepts⟩
      obtain ⟨skipped, rfl⟩ := (List.mem_tails _ _).1 ht
      exact ⟨skipped, t, rfl, (hrests t).1 haccepts⟩
    · rintro ⟨skipped, t, rfl, hmatches⟩
      exact ⟨t, (List.mem_tails _ _).2 (List.suffix_append skipped t), (hrests t).2 hmatches⟩
  | case4 n c p hs =>
    exact iff_of_false Bool.false_ne_true fun hm => hm.ne_nil hs rfl
  | case5 n p c s ih =>
    rw [ih (Nat.le_of_succ_le_succ h)]
    simp [matches_anyChar_iff]
  | case6 n p c s ih =>
    -- the steps that are left are enough for what follows the class
    rw [Bool.and_eq_true, ih (Nat.le_trans (length_classTest_le p) (Nat.le_of_succ_le_succ h))]
    simp [matches_oneOf_iff]
  | case7 n q p c s ih =>
    rw [Bool.and_eq_true, ih (Nat.le_of_succ_le_succ (Nat.le_of_succ_le h))]
    simp [matches_quoted_iff]
  | case8 n q p c s hs hq ho hb ih =>
    -- a backslash stands for itself only at the end of the pattern
    have hend : q = '\\' → p = [] := fun hq => by
      cases p with
      | nil => rfl
      | cons x p => exact (hb x p hq rfl).elim
    rw [Bool.and_eq_true, ih (Nat.le_of_succ_le_succ h), matches_itself_iff hs hq ho hend]
    simp

instance (p s : List Char) : Decidable (Matches p s) :=
  decidable_of_iff _ (acceptsIn_iff (Nat.le_refl p.length))

/-- A class turned around, two ends in the wrong order, and a bracket that is quoted. -/
example :
    Matches "h[^a-f]*llo".toList "hillo".toList ∧ ¬ Matches "h[^a-f]*llo".toList "hello".toList ∧
      Matches "[z-x]\\[?".toList "y[!".toList := by
  decide

/-! ### The pattern of a start -/

theorem escapeChars_append (a b : List Char) :
    escapeChars (a ++ b) = escapeChars a ++ escapeChars b := by
  induction a with
  | nil => rfl
  | cons c a ih =>
    simp only [List.cons_append, escapeChars, ih]
    split <;> rfl

theorem matches_anyText (s : List Char) : Matches ['*'] s :=
  matches_anyText_iff.2 ⟨s, [], s.append_nil.symm, .nothing⟩

theorem matches_escapeChars_anyText_iff : Matches (escapeChars a ++ ['*']) s ↔ a <+: s := by
  rw [matches_escapeChars_append_iff]
  constructor
  · rintro ⟨t, rfl, -⟩
    exact List.prefix_append a t
  · rintro ⟨t, rfl⟩
    exact ⟨t, rfl, matches_anyText t⟩

theorem toList_startingWith (a b : String) :
    (startingWith a b).toList = escapeChars (a ++ b).toList ++ ['*'] := by
  simp only [startingWith, escape, String.toList_append, String.toList_ofList, escapeChars_append]
  rfl

/-- The pattern of a start matches exactly the keys that begin with it. -/
theorem matches_startingWith_iff (a b key : String) :
    Matches (startingWith a b).toList key.toList ↔ ∃ rest, key = a ++ b ++ rest := by
  rw [toList_startingWith, matches_escapeChars_anyText_iff, ← Slots.startsWith_iff,
    Slots.startsWith, List.isPrefixOf_iff_prefix]

/-- Without its escape a star would reach keys of others. -/
example :
    Matches (startingWith "app:" "a*").toList "app:a*:minute".toList ∧
      ¬ Matches (startingWith "app:" "a*").toList "app:ab:minute".toList ∧
      Matches "app:a**".toList "app:ab:minute".toList := by
  decide

end Glob

/-! ### What a clearing says to the server -/

/-- A command and the reply to it. -/
structure Exchange where
  command : Command
  reply : Reply

namespace Exchange

/-- The keys that a step of a scan lists. -/
def listed (e : Exchange) : List String :=
  match e.command with
  | .scan _ _ =>
    ((Client.accept (Reply.pair? Reply.nat64? Reply.texts?) e.reply).toOption.map
      Prod.snd).getD []
  | _ => []

/-- The keys that a command deletes. -/
def deleted (e : Exchange) : List String :=
  match e.command with
  | .delete keys => keys
  | _ => []

variable {pattern : String} {cursor : Nat} {keys : List String} {r : Reply}

@[simp] theorem deleted_scan : deleted ⟨.scan cursor pattern, r⟩ = [] := rfl

@[simp] theorem deleted_delete : deleted ⟨.delete keys, r⟩ = keys := rfl

@[simp] theorem listed_delete : listed ⟨.delete keys, r⟩ = [] := rfl

theorem listed_scan_error {fault : Fault}
    (h : Client.accept (Reply.pair? Reply.nat64? Reply.texts?) r = .error fault) :
    listed ⟨.scan cursor pattern, r⟩ = [] := by
  simp only [listed, h]
  rfl

theorem listed_scan_ok {next : Nat}
    (h : Client.accept (Reply.pair? Reply.nat64? Reply.texts?) r = .ok (next, keys)) :
    listed ⟨.scan cursor pattern, r⟩ = keys := by
  simp only [listed, h]
  rfl

end Exchange

/-- A server that replies as it likes, also by what was said before, and keeps the exchanges in
their order. -/
def conversed (reply : List Exchange → Command → Reply) :
    (command : Command) → List Exchange → Reply × List Exchange :=
  fun command log => (reply log command, log ++ [⟨command, reply log command⟩])

/-- Exchanges in which scans for a pattern list keys, and just these are deleted. -/
structure Sweep (pattern : String) (log : List Exchange) : Prop where
  commands : ∀ e ∈ log, (∃ cursor, e.command = .scan cursor pattern) ∨
    ∃ keys, e.command = .delete keys
  deletes : log.flatMap Exchange.deleted = log.flatMap Exchange.listed

/-- Exchanges in which keys are deleted, if there are any. -/
def Deletion (keys : List String) (log : List Exchange) : Prop :=
  keys = [] ∧ log = [] ∨ ∃ r, log = [⟨.delete keys, r⟩]

namespace Sweep

variable {pattern : String} {cursor : Nat} {r : Reply} {log log' : List Exchange}

theorem nil : Sweep pattern [] := ⟨by simp, rfl⟩

/-- A step of a scan, and the deletion of what it lists. -/
theorem of_scan (h : Deletion (Exchange.listed ⟨.scan cursor pattern, r⟩) log) :
    Sweep pattern (⟨.scan cursor pattern, r⟩ :: log) := by
  rcases h with ⟨hlisted, rfl⟩ | ⟨r', rfl⟩
  · refine ⟨fun e he => ?_, ?_⟩
    · rw [List.mem_singleton.1 he]
      exact .inl ⟨cursor, rfl⟩
    · simp [hlisted]
  · refine ⟨fun e he => ?_, ?_⟩
    · rcases List.mem_pair.1 he with rfl | rfl
      · exact .inl ⟨cursor, rfl⟩
      · exact .inr ⟨_, rfl⟩
    · simp

theorem append (h : Sweep pattern log) (h' : Sweep pattern log') : Sweep pattern (log ++ log') := by
  refine ⟨fun e he => (List.mem_append.1 he).elim (h.commands e) (h'.commands e), ?_⟩
  rw [List.flatMap_append, List.flatMap_append, h.deletes, h'.deletes]

/-- If scans list only keys that match the pattern of a start, no other keys are deleted. -/
theorem begins_of_deleted {a b : String} (h : Sweep (Glob.startingWith a b) log)
    (hlisted : ∀ e ∈ log, ∀ key ∈ e.listed,
      Glob.Matches (Glob.startingWith a b).toList key.toList) :
    ∀ e ∈ log, ∀ key ∈ e.deleted, ∃ rest, key = a ++ b ++ rest := by
  intro e he key hkey
  have hdeleted : key ∈ log.flatMap Exchange.deleted := List.mem_flatMap.2 ⟨e, he, hkey⟩
  rw [h.deletes] at hdeleted
  obtain ⟨scan, hscan, hfound⟩ := List.mem_flatMap.1 hdeleted
  exact (Glob.matches_startingWith_iff a b key).1 (hlisted scan hscan key hfound)

end Sweep

namespace Client

open Program

variable {c : Client (Program service)} {pattern : String} {log : List Exchange}
variable {reply : List Exchange → Command → Reply}

theorem deleteAll_yields (hc : c.send = ask) (keys : List String) :
    (c.deleteAll keys).Yields (conversed reply) log fun _ log' =>
      ∃ new, log' = log ++ new ∧ Deletion keys new := by
  by_cases hkeys : keys.isEmpty
  · rw [deleteAll, if_pos hkeys]
    exact .done ⟨[], log.append_nil.symm, .inl ⟨List.isEmpty_iff.1 hkeys, rfl⟩⟩
  · rw [deleteAll, if_neg hkeys]
    refine (call_yields hc _ _).mono ?_
    rintro a log' ⟨-, rfl⟩
    exact ⟨_, rfl, .inr ⟨_, rfl⟩⟩

/-- What a scan from a cursor on says to the server, in no more than so many steps. -/
theorem deleteScanned_yields (hc : c.send = ask) (steps removed cursor : Nat) :
    (c.deleteScanned pattern steps removed cursor).Yields (conversed reply) log fun _ log' =>
      ∃ new, log' = log ++ new ∧ Sweep pattern new ∧
        (0 < steps → new.head?.map Exchange.command = some (.scan cursor pattern)) := by
  induction steps generalizing removed cursor log with
  | zero => exact .done ⟨[], log.append_nil.symm, .nil, fun h => absurd h (Nat.lt_irrefl 0)⟩
  | succ steps ih =>
    refine (call_yields hc (.scan cursor pattern) _).bind ?_
    rintro a log' ⟨rfl, rfl⟩
    -- nothing is known of the reply but what it lists
    simp only [conversed]
    generalize reply log (.scan cursor pattern) = r
    cases haccept : accept (Reply.pair? Reply.nat64? Reply.texts?) r with
    | error fault =>
      exact .done ⟨_, rfl, .of_scan (.inl ⟨Exchange.listed_scan_error haccept, rfl⟩), fun _ => rfl⟩
    | ok found =>
      obtain ⟨next, keys⟩ := found
      refine (deleteAll_yields hc keys).bind ?_
      rintro deletion log' ⟨new, rfl, hnew⟩
      rw [← Exchange.listed_scan_ok haccept] at hnew
      have hsweep : Sweep pattern (⟨.scan cursor pattern, r⟩ :: new) := .of_scan hnew
      have hover : log ++ [⟨.scan cursor pattern, r⟩] ++ new = log ++
          (⟨.scan cursor pattern, r⟩ :: new) :=
        List.append_assoc _ _ _
      rw [hover]
      cases deletion with
      | error fault => exact .done ⟨_, rfl, hsweep, fun _ => rfl⟩
      | ok n =>
        by_cases hlast : next = 0
        · simp only [if_pos hlast]
          exact .done ⟨_, rfl, hsweep, fun _ => rfl⟩
        · simp only [if_neg hlast]
          refine (ih (removed + n) next).mono ?_
          rintro a log' ⟨later, rfl, hlater, -⟩
          exact ⟨_, List.append_assoc _ _ _, hsweep.append hlater, fun _ => rfl⟩

/-- **A clearing scans for just the keys that begin as asked.** For all texts `a` and `b`, the
pattern by which a client whose keys begin with `a` clears the keys that start with `b` matches
exactly the keys that begin with `a` and then `b`. Whatever the server replies, a clearing begins
with a scan for that pattern, it goes on with nothing but scans for it and deletions, and the keys
that it deletes are just those that the scans list: none that begins otherwise, if the server keeps
to the pattern. -/
theorem clearing_matches_start (a b : String) :
    (∀ key : String, Glob.Matches (Glob.startingWith a b).toList key.toList ↔
      ∃ rest, key = a ++ b ++ rest) ∧
    ∀ (timeout : Span) (nonce : Program service String) (reply : List Exchange → Command → Reply),
      let c : Client (Program service) := ⟨⟨a, timeout⟩, ask, nonce⟩
      (c.rateStore (.clearStarting b)).Yields (conversed reply) [] fun _ log =>
        log.head?.map Exchange.command = some (.scan 0 (Glob.startingWith a b)) ∧
        Sweep (Glob.startingWith a b) log ∧
        ((∀ e ∈ log, ∀ key ∈ e.listed, Glob.Matches (Glob.startingWith a b).toList key.toList) →
          ∀ e ∈ log, ∀ key ∈ e.deleted, ∃ rest, key = a ++ b ++ rest) := by
  refine ⟨Glob.matches_startingWith_iff a b, ?_⟩
  intro timeout nonce reply c
  have hscan :
      (c.deleteScanned (Glob.startingWith a b) scanLimit 0 0).Yields (conversed reply) [] _ :=
    deleteScanned_yields rfl scanLimit 0 0
  refine hscan.bind ?_
  rintro n log ⟨new, rfl, hsweep, hfirst⟩
  exact .done ⟨hfirst (by decide), hsweep, hsweep.begins_of_deleted⟩

end Client

end KeyValue

end GuardedWrites
