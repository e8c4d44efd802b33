import GuardedWrites.Proofs.Transaction.AllOrNothing

/-!
# Runs inside runs

Work may call further runs, on its own store or on others, to any depth. The transaction of the
innermost run is the scope of everything inside it, and no other one is seen: a run joins the
transaction of the run right around it if both are on one store, and otherwise begins transactions
of its own, even if a run further out is on its store. A transaction is committed exactly if the run
that began it commits it, after its work.

* `RunTree` — what a task does, as a tree of runs that announces where it is;
* `openRuns` — the runs that a task has entered and not left, as its deeds tell;
* `Nests` — what may happen inside which open runs; `RunTree.nests` says that trees do only that;
* `owners` — the runs that hold a transaction of their own, which come and go like a stack;
* `nested_runs_share` — which runs share a transaction, and when it is committed.
-/

namespace GuardedWrites

open Shared

variable {W : Service} {ε α ρ : Type}

/-! ### Trees of runs -/

/-- What a task announces: it has entered a run on a store, the work of the run was given a handle,
or the run is over. -/
inductive Mark where
  | entered (store : Nat)
  | given (h : Handle)
  | left

/-- A service that takes announcements too. -/
abbrev Marked (W : Service) : Service := ⟨Mark ⊕ W.Request, Sum.elim (fun _ => Unit) W.Reply⟩

/-- An announcement, made. -/
abbrev Mark.deed (k : Mark) : Deed (service (Marked W)) := .call (.other (.inl k)) ()

/-- An announcement, before the rest of a program. -/
def announce (k : Mark) (p : Program (service (Marked W)) α) : Program (service (Marked W)) α :=
  .call (.other (.inl k)) fun _ => p

/-- A request that a task makes beside its runs: any but for the begin or the end of a
transaction. -/
def Shared.Request.Inner : Request (Marked W) → Prop
  | .database _ r => r.works? ≠ none
  | .other (.inl _) => False
  | _ => True

/-- A request that neither concerns a database nor announces anything. -/
def Shared.Request.Silent (r : Request (Marked W)) : Prop := r.Aside ∧ r.Inner

/-- A discreet runner whose observer announces nothing. -/
structure Reticent (R : Runner (Action (Marked W))) : Prop extends Discreet R where
  silent : ∀ a b scope, (R.observe a b scope).All Request.Silent

/-- What a task does: it makes requests, waits, and runs work, which is such a tree again. -/
inductive RunTree (W : Service) (ε : Type) : Type → Type 1
  | done {α : Type} (a : α) : RunTree W ε α
  | ask {α : Type} (r : Request (Marked W)) (hr : r.Inner)
      (next : Reply (Marked W) r → RunTree W ε α) :
    RunTree W ε α
  | timer {α : Type} (next : Nat → RunTree W ε α) : RunTree W ε α
  | sleep {α : Type} (ticks : Nat) (next : RunTree W ε α) : RunTree W ε α
  | hang {α : Type} : RunTree W ε α
  | run {α β : Type} (R : Runner (Action (Marked W))) (hR : Reticent R) (spec : RunSpec)
    (work : Handle → RunTree W ε (Except ε β)) (next : Except ε β → RunTree W ε α) : RunTree W ε α

/-- The actions of a tree, with the announcements. -/
def RunTree.action [TransactionFailure ε] : {α : Type} → RunTree W ε α → Action (Marked W) α
  | _, .done a => fun _ => .done a
  | _, .ask r _ next => fun scope => .call r fun x => (next x).action scope
  | _, .timer next => fun scope => .timer fun t => (next t).action scope
  | _, .sleep ticks next => fun scope => .sleep ticks (next.action scope)
  | _, .hang => fun _ => .hang
  | _, .run R _ spec work next => fun scope =>
    announce (.entered R.store) <|
      (R.run spec (fun h scope => announce (.given h) ((work h).action scope)) scope).bind fun r =>
        announce .left ((next r).action scope)

/-! ### The open runs of a task -/

/-- Where an open run is: in no transaction, in one that it has begun, or in the work in one. -/
inductive Progress where
  | apart
  | begun (h : Handle)
  | working (h : Handle)

/-- The handle of the transaction. -/
def Progress.handle? : Progress → Option Handle
  | .apart => none
  | .begun h => some h
  | .working h => some h

/-- A run that was entered and not left. -/
structure OpenRun where
  store : Nat
  progress : Progress

/-- The store of the innermost open run. -/
def innermost? (runs : List OpenRun) : Option Nat := runs.head?.map (·.store)

/-- The innermost open run has gone on. -/
def goOn (p : Progress) : List OpenRun → List OpenRun
  | [] => []
  | run :: outer => ⟨run.store, p⟩ :: outer

/-- The open runs after one more deed, the innermost first. -/
def noted (runs : List OpenRun) : Deed (service (Marked W)) → List OpenRun
  | .call (.other (.inl (.entered store))) _ => ⟨store, .apart⟩ :: runs
  | .call (.other (.inl (.given h))) _ => goOn (.working h) runs
  | .call (.other (.inl .left)) _ => runs.tail
  | .call (.database store (.begin context)) (.ok n) => goOn (.begun ⟨store, n, context⟩) runs
  | .call (.database _ (.commit _)) _ => goOn .apart runs
  | .call (.database _ (.rollback _)) _ => goOn .apart runs
  | _ => runs

/-- The open runs after some deeds of a task. -/
def openRuns (ds : List (Deed (service (Marked W)))) : List OpenRun := ds.foldl noted []

/-- A deed of a request that a task makes beside its runs, or a wait. -/
def Deed.Inner : Deed (service (Marked W)) → Prop
  | .call r _ => r.Inner
  | .wait => True

/-- What may happen in which open runs, and what the open runs are then. A transaction is begun by
the innermost run, if the run around it is on another store. Work is given the handle of the
transaction that its run has begun, or else that of the run around it, on the same store. A
transaction is ended by the run that began it, when that run is the innermost one again. -/
inductive Nests : List OpenRun → Deed (service (Marked W)) → List OpenRun → Prop
  | inner (runs : List OpenRun) (d : Deed (service (Marked W))) (hd : d.Inner) : Nests runs d runs
  | entered (runs : List OpenRun) (store : Nat) :
      Nests runs (Mark.entered store).deed (⟨store, .apart⟩ :: runs)
  | refused (outer : List OpenRun) (store : Nat) (context : TransactionContext) (e : StoreError)
    (hout : innermost? outer ≠ some store) :
    Nests (⟨store, .apart⟩ :: outer) (.call (.database store (.begin context)) (.error e))
      (⟨store, .apart⟩ :: outer)
  | begun (outer : List OpenRun) (store n : Nat) (context : TransactionContext)
    (hout : innermost? outer ≠ some store) :
    Nests (⟨store, .apart⟩ :: outer) (.call (.database store (.begin context)) (.ok n))
      (⟨store, .begun ⟨store, n, context⟩⟩ :: outer)
  | given (outer : List OpenRun) (h : Handle) (hout : innermost? outer ≠ some h.store) :
    Nests (⟨h.store, .begun h⟩ :: outer) (Mark.given h).deed (⟨h.store, .working h⟩ :: outer)
  | joined (outer : List OpenRun) (h : Handle) :
    Nests (⟨h.store, .apart⟩ :: ⟨h.store, .working h⟩ :: outer) (Mark.given h).deed
      (⟨h.store, .working h⟩ :: ⟨h.store, .working h⟩ :: outer)
  | ended (outer : List OpenRun) (h : Handle) (hout : innermost? outer ≠ some h.store)
    (r : TransactionalStore.Request) (hr : r.ends? = some h.tx)
    (x : Reply (Marked W) (.database h.store r)) :
    Nests (⟨h.store, .working h⟩ :: outer) (.call (.database h.store r) x)
      (⟨h.store, .apart⟩ :: outer)
  | left (run : OpenRun) (outer : List OpenRun)
    (hrun : innermost? outer ≠ some run.store → run.progress = .apart) :
      Nests (run :: outer) Mark.left.deed outer

section Nests

variable {runs runs' : List OpenRun} {d : Deed (service (Marked W))}
variable {ds : List (Deed (service (Marked W)))}

theorem noted_of_inner (hd : d.Inner) : noted runs d = runs := by
  cases d with
  | wait => rfl
  | call r x =>
    cases r with
    | database i r => cases r <;> first | rfl | exact absurd rfl hd
    | other r =>
      cases r with
      | inl k => exact hd.elim
      | inr r => rfl
    | _ => rfl

theorem Deed.Inner.begun?_eq_none {home : Nat → Nat} (hd : d.Inner) : d.begun? home = none := by
  cases d with
  | wait => rfl
  | call r x =>
    cases r with
    | database i r =>
      cases r with
      | begin context => exact absurd rfl hd
      | _ => rfl
    | _ => rfl

theorem Deed.Inner.ends?_eq_none {home : Nat → Nat} (hd : d.Inner) : d.ends? home = none := by
  cases d with
  | wait => rfl
  | call r x =>
    cases r with
    | database i r => cases r <;> first | rfl | exact absurd rfl hd
    | _ => rfl

theorem Nests.eq_noted (h : Nests runs d runs') : runs' = noted runs d := by
  cases h with
  | inner runs d hd => exact (noted_of_inner hd).symm
  | ended outer h hout r hr x =>
    cases r with
    | commit n => rfl
    | rollback n => rfl
    | _ => cases hr
  | _ => rfl

theorem openRuns_of_accepts (h : Program.Accepts Nests runs ds runs') :
    runs' = ds.foldl noted runs := by
  induction ds generalizing runs with
  | nil => exact h
  | cons d ds ih =>
    obtain ⟨m, hm, h⟩ := h
    rw [List.foldl_cons, ← hm.eq_noted]
    exact ih h

/-- Each of the deeds that are accepted may happen in the runs that are then open. -/
theorem nests_of_accepts {before after : List (Deed (service (Marked W)))} {last : List OpenRun}
    (h : Program.Accepts Nests [] (before ++ d :: after) last) :
    ∃ runs', Program.Accepts Nests [] before (openRuns before) ∧ Nests (openRuns before) d runs' ∧
      Program.Accepts Nests runs' after last := by
  obtain ⟨runs, hbefore, runs', hd, hafter⟩ := Program.accepts_append.1 h
  obtain rfl := openRuns_of_accepts hbefore
  exact ⟨runs', hbefore, hd, hafter⟩

end Nests

/-! ### What trees do -/

section Trees

variable [TransactionFailure ε]

/-- The scope of what happens in some open runs. -/
def Fits (scope : Scope) (runs : List OpenRun) : Prop :=
  runs = [] ∧ scope = none ∨ ∃ h outer, runs = ⟨h.store, .working h⟩ :: outer ∧ scope = some h

theorem Fits.innermost? {scope : Scope} {runs : List OpenRun} (h : Fits scope runs) :
    innermost? runs = scope.map (·.store) := by
  rcases h with ⟨rfl, rfl⟩ | ⟨h, outer, rfl, rfl⟩
  · rfl
  · rfl

/-- A run that joins no other one: each of its attempts begins a transaction and ends it when the
work is over. -/
theorem nests_run_alone {β : Type} {R : Runner (Action (Marked W))} (hR : Reticent R)
    {spec : RunSpec} {work : Handle → Action (Marked W) (Except ε β)} {scope : Scope}
    {runs : List OpenRun} (halone : Provenance.joins R scope = false)
    (hout : innermost? runs ≠ some R.store)
    (hwork : ∀ h, h.store = R.store →
      (work h (some h)).Obeys Nests (fun runs' _ => runs' = ⟨h.store, .working h⟩ :: runs)
        (⟨h.store, .begun h⟩ :: runs)) :
    (R.run spec work scope).Obeys Nests (fun runs' _ => runs' = ⟨R.store, .apart⟩ :: runs)
      (⟨R.store, .apart⟩ :: runs) := by
  refine Runs.obeys_run (I := fun m => m = ⟨R.store, .apart⟩ :: runs) (P := Request.Silent)
    (fun m r x hr => .inner m _ hr.2) (fun m => .inner m _ trivial) hR.silent (fun n m hm => ?_)
    (fun m e hm => hm) halone rfl
  rw [hm, Runs.attempt_eq hR.toDiscreet]
  intro x
  rcases x with e | tx
  · exact ⟨_, .refused runs R.store _ e hout, rfl⟩
  · refine ⟨_, .begun runs R.store tx _ hout, ?_⟩
    refine (hwork ⟨R.store, tx, _⟩ rfl).bind fun m v hm => ?_
    rw [hm]
    cases v with
    | error e => exact fun x => ⟨_, .ended runs ⟨R.store, tx, _⟩ hout (.rollback tx) rfl x, rfl⟩
    | ok a => exact fun x => ⟨_, .ended runs ⟨R.store, tx, _⟩ hout (.commit tx) rfl x, rfl⟩

/-- A tree does only what may happen in the open runs around it, and leaves them as they were. -/
theorem RunTree.nests (t : RunTree W ε α) {scope : Scope} {runs : List OpenRun}
    (hfits : Fits scope runs) :
    (t.action scope).Obeys Nests (fun runs' _ => runs' = runs) runs := by
  induction t generalizing scope runs with
  | done a => exact rfl
  | ask r hr next ih => exact fun x => ⟨runs, .inner runs _ hr, ih x hfits⟩
  | timer next ih => exact ⟨runs, .inner runs _ trivial, fun t => ih t hfits⟩
  | sleep ticks next ih => exact ⟨runs, .inner runs _ trivial, ih hfits⟩
  | hang => trivial
  | run R hR spec work next ihwork ihnext =>
    refine fun _ => ⟨_, .entered runs R.store, ?_⟩
    cases hscope : scope.filter fun h : Handle => h.store == R.store with
    | none =>
      have hout : innermost? runs ≠ some R.store := by
        rw [hfits.innermost?]
        intro hstore
        obtain ⟨h, rfl, hh⟩ := Option.map_eq_some_iff.1 hstore
        simp [hh] at hscope
      refine (nests_run_alone hR (by simp [Provenance.joins, hscope]) hout fun h hstore => ?_).bind
        fun m r hm => ?_
      · exact fun _ => ⟨_, .given runs h (hstore ▸ hout), ihwork h (.inr ⟨h, runs, rfl, rfl⟩)⟩
      · rw [hm]
        exact fun _ => ⟨runs, .left _ runs fun _ => rfl, ihnext r hfits⟩
    | some h =>
      -- the run is its work in the transaction of the run around it
      obtain ⟨rfl, hstore⟩ := Option.filter_eq_some_iff.1 hscope
      obtain ⟨h', outer, rfl, hh'⟩ := hfits.resolve_left fun hnone => by cases hnone.2
      cases hh'
      have hstore : h.store = R.store := by simpa using hstore
      rw [Provenance.run_of_enclosed spec hscope, ← hstore]
      refine fun _ => ⟨_, .joined outer h, ?_⟩
      refine (ihwork h (.inr ⟨h, _, rfl, rfl⟩)).bind fun m r hm => ?_
      rw [hm]
      exact fun _ => ⟨_, .left _ _ fun hout => absurd rfl hout,
        ihnext r (.inr ⟨h, outer, rfl, rfl⟩)⟩

/-- A tree ends only transactions that its runs began. -/
theorem RunTree.endsOwn (home : Nat → Nat) (t : RunTree W ε α) (scope : Scope) :
    EndsOwn home [] (t.action scope) := by
  induction t generalizing scope with
  | done a => trivial
  | ask r hr next ih =>
    intro x
    have hinner : Deed.Inner (.call r x) := hr
    refine ⟨[], ⟨fun t ht => ?_, ?_⟩, ih x scope⟩
    · rw [hinner.ends?_eq_none] at ht
      cases ht
    · rw [hinner.begun?_eq_none]
      rfl
  | timer next ih => exact ⟨[], ownership_aside [] trivial, fun t => ih t scope⟩
  | sleep ticks next ih => exact ⟨[], ownership_aside [] trivial, ih scope⟩
  | hang => trivial
  | run R hR spec work next ihwork ihnext =>
    refine fun _ => ⟨[], ownership_aside [] trivial, ?_⟩
    refine EndsOwn.bind (EndsOwn.run hR.toDiscreet (fun h scope => ?_) scope) fun r => ?_
    · exact fun _ => ⟨[], ownership_aside [] trivial, ihwork h scope⟩
    · exact fun _ => ⟨[], ownership_aside [] trivial, ihnext r scope⟩

end Trees

/-! ### The runs that hold a transaction -/

/-- The open runs that have begun a transaction of their own and not ended it, the innermost first:
the handle of each, and the runs around it. -/
def owners : List OpenRun → List (Handle × List OpenRun)
  | [] => []
  | run :: outer =>
    if innermost? outer = some run.store then owners outer
    else (run.progress.handle?.map fun h => (h, outer)).toList ++ owners outer

/-- Those of them that hold transaction `t`. -/
def holders (home : Nat → Nat) (t : Nat × Nat) (runs : List OpenRun) :
    List (Handle × List OpenRun) :=
  (owners runs).filter fun o => o.1.transaction home = t

/-- A request for the end of the transaction of a handle, with its answer. -/
def Deed.EndOf (h : Handle) (d : Deed (service (Marked W))) : Prop :=
  ∃ r x, d = .call (.database h.store r) x ∧ r.ends? = some h.tx

section Owners

variable {home : Nat → Nat} {t : Nat × Nat} {h : Handle} {outer runs runs' : List OpenRun}
variable {d : Deed (service (Marked W))} {ds : List (Deed (service (Marked W)))}

theorem Deed.EndOf.ends? (hd : d.EndOf h) (home : Nat → Nat) :
    d.ends? home = some (h.transaction home) := by
  obtain ⟨r, x, rfl, hr⟩ := hd
  simp [Deed.ends?, hr, Handle.transaction]

theorem owners_alone (p : Progress) {store : Nat} (hout : innermost? outer ≠ some store) :
    owners (⟨store, p⟩ :: outer) = (p.handle?.map fun h => (h, outer)).toList ++
      owners outer := if_neg hout

theorem owners_joined (p q : Progress) (store : Nat) :
    owners (⟨store, p⟩ :: ⟨store, q⟩ :: outer) = owners (⟨store, q⟩ :: outer) := if_pos rfl

/-- A begin puts the innermost run on top of the owners, an end takes it away, and nothing else
changes them. -/
theorem Nests.owners_cases (home : Nat → Nat) (hd : Nests runs d runs') :
    (owners runs' = owners runs ∧ d.ends? home = none) ∨
    (∃ h outer, d.begun? home = some (h.transaction home) ∧ d.ends? home = none ∧
      owners runs' = (h, outer) :: owners runs) ∨
    ∃ h outer, d.EndOf h ∧ runs = ⟨h.store, .working h⟩ :: outer ∧
      owners runs = (h, outer) :: owners runs' := by
  cases hd with
  | inner runs d hd => exact .inl ⟨rfl, hd.ends?_eq_none⟩
  | entered runs store =>
    refine .inl ⟨?_, rfl⟩
    by_cases hout : innermost? runs = some store
    · exact if_pos hout
    · rw [owners_alone .apart hout]
      rfl
  | refused outer store context e hout => exact .inl ⟨rfl, rfl⟩
  | begun outer store n context hout =>
    refine .inr (.inl ⟨⟨store, n, context⟩, outer, rfl, rfl, ?_⟩)
    rw [owners_alone _ hout, owners_alone _ hout]
    rfl
  | given outer h hout =>
    refine .inl ⟨?_, rfl⟩
    rw [owners_alone _ hout, owners_alone _ hout]
    rfl
  | joined outer h =>
    refine .inl ⟨?_, rfl⟩
    rw [owners_joined, owners_joined]
  | ended outer h hout r hr x =>
    refine .inr (.inr ⟨h, outer, ⟨r, x, rfl, hr⟩, rfl, ?_⟩)
    rw [owners_alone _ hout, owners_alone _ hout]
    rfl
  | left run _ hrun =>
    refine .inl ⟨?_, rfl⟩
    obtain ⟨store, p⟩ := run
    by_cases hout : innermost? runs' = some store
    · exact (if_pos hout).symm
    · obtain rfl := hrun hout
      rw [owners_alone _ hout]
      rfl

/-- What is not the begin of a transaction leaves its holders as they are, or it is its end and
takes the innermost run from them. -/
theorem Nests.holders_cases (hd : Nests runs d runs') (hbegun : d.begun? home ≠ some t) :
    (d.ends? home ≠ some t ∧ holders home t runs' = holders home t runs) ∨
    ∃ h outer, d.EndOf h ∧ runs = ⟨h.store, .working h⟩ :: outer ∧
      holders home t runs = (h, outer) :: holders home t runs' := by
  rcases hd.owners_cases home with
    ⟨howners, hends⟩ | ⟨h, outer, hb, hends, howners⟩ | ⟨h, outer, hend, hruns, howners⟩
  · exact .inl ⟨by simp [hends], by rw [holders, howners, holders]⟩
  · have hne : ¬ h.transaction home = t := fun ht => hbegun (ht ▸ hb)
    exact .inl ⟨by simp [hends], by simp [holders, howners, hne]⟩
  · by_cases ht : h.transaction home = t
    · exact .inr ⟨h, outer, hend, hruns, by simp [holders, howners, ht]⟩
    · exact .inl ⟨by simpa [hend.ends? home] using ht, by simp [holders, howners, ht]⟩

/-- A transaction without a holder has none, and is not ended, until it is begun. -/
theorem not_ends_of_accepts (hds : Program.Accepts Nests runs ds runs')
    (hbegun : ∀ d ∈ ds, d.begun? home ≠ some t) (hnone : holders home t runs = []) :
    holders home t runs' = [] ∧ ∀ d ∈ ds, d.ends? home ≠ some t := by
  induction ds generalizing runs with
  | nil =>
    obtain rfl := hds
    exact ⟨hnone, fun d hd => absurd hd List.not_mem_nil⟩
  | cons e ds ih =>
    obtain ⟨m, he, hds⟩ := hds
    obtain ⟨hbegun, hrest⟩ := List.forall_mem_cons.1 hbegun
    rcases he.holders_cases hbegun with ⟨hends, hsame⟩ | ⟨h, outer, -, -, hholders⟩
    · obtain ⟨hlast, hnot⟩ := ih hds hrest (hsame.trans hnone)
      exact ⟨hlast, List.forall_mem_cons.2 ⟨hends, hnot⟩⟩
    · rw [hnone] at hholders
      cases hholders

/-- A transaction with one holder is ended once, by that run, in the runs that were around it all
the time. -/
theorem end_of_accepts (hds : Program.Accepts Nests runs ds runs')
    (hbegun : ∀ d ∈ ds, d.begun? home ≠ some t) (hone : holders home t runs = [(h, outer)])
    (hd : d ∈ ds) (hends : d.ends? home = some t) :
    d.EndOf h ∧ ∃ ws after, ds = ws ++ d :: after ∧
      Program.Accepts Nests runs ws (⟨h.store, .working h⟩ :: outer) := by
  induction ds generalizing runs with
  | nil => exact absurd hd List.not_mem_nil
  | cons e ds ih =>
    obtain ⟨m, he, hds⟩ := hds
    obtain ⟨hbegun, hrest⟩ := List.forall_mem_cons.1 hbegun
    rcases he.holders_cases hbegun with ⟨hne, hsame⟩ | ⟨h', outer', hend, hruns, hholders⟩
    · rcases List.mem_cons.1 hd with rfl | hd
      · exact absurd hends hne
      · obtain ⟨hend, ws, after, rfl, hws⟩ := ih hds hrest (hsame.trans hone) hd
        exact ⟨hend, e :: ws, after, rfl, m, he, hws⟩
    · rw [hone] at hholders
      obtain ⟨hhead, hnone⟩ := List.cons.inj hholders
      cases hhead
      rcases List.mem_cons.1 hd with rfl | hd
      · exact ⟨hend, [], ds, rfl, hruns.symm⟩
      · exact absurd hends ((not_ends_of_accepts hds hrest hnone.symm).2 d hd)

end Owners

/-! ### Every tree in every schedule -/

/-- The begin of the transaction of a handle. -/
abbrev Handle.began (h : Handle) : Deed (service W) :=
  .call (.database h.store (.begin h.context)) (.ok h.tx)

/-- Its commit. -/
abbrev Handle.committed (h : Handle) : Deed (service W) :=
  .call (.database h.store (.commit h.tx)) (.ok ())

section Run

/-- The end of a transaction that commits is its commit. -/
theorem Deed.EndOf.eq_committed {home : Nat → Nat} {h : Handle} {d : Deed (service (Marked W))}
    {t : Nat × Nat} (hd : d.EndOf h) (hcommit : d.commit? home = some t) :
    d = h.committed := by
  obtain ⟨r, x, rfl, hr⟩ := hd
  cases r with
  | commit n =>
    cases hr
    cases x with
    | error e => cases hcommit
    | ok u => rfl
  | _ => cases hcommit

variable {home : Nat → Nat} {h : Handle} {outer runs runs' : List OpenRun}
variable {d : Deed (service (Marked W))}
variable {ds : List (Deed (service (Marked W)))}

/-- The handles of open runs: a step makes no other one than that of the transaction that it
begins. -/
theorem Nests.handle_cases {run : OpenRun} (hd : Nests runs d runs') (hrun : run ∈ runs')
    (hh : run.progress.handle? = some h) :
    d = h.began ∨ ∃ run ∈ runs, run.progress.handle? = some h := by
  cases hd with
  | inner runs d hd => exact .inr ⟨run, hrun, hh⟩
  | entered runs store =>
    rcases List.mem_cons.1 hrun with rfl | hrun
    · cases hh
    · exact .inr ⟨run, hrun, hh⟩
  | refused outer store context e hout => exact .inr ⟨run, hrun, hh⟩
  | begun outer store n context hout =>
    rcases List.mem_cons.1 hrun with rfl | hrun
    · cases hh
      exact .inl rfl
    · exact .inr ⟨run, List.mem_cons_of_mem _ hrun, hh⟩
  | given outer k hout =>
    rcases List.mem_cons.1 hrun with rfl | hrun
    · exact .inr ⟨_, List.mem_cons_self, hh⟩
    · exact .inr ⟨run, List.mem_cons_of_mem _ hrun, hh⟩
  | joined outer k =>
    rcases List.mem_cons.1 hrun with rfl | hrun
    · exact .inr ⟨_, List.mem_cons_of_mem _ List.mem_cons_self, hh⟩
    · exact .inr ⟨run, List.mem_cons_of_mem _ hrun, hh⟩
  | ended outer k hout r hr x =>
    rcases List.mem_cons.1 hrun with rfl | hrun
    · cases hh
    · exact .inr ⟨run, List.mem_cons_of_mem _ hrun, hh⟩
  | left run' outer hrun' => exact .inr ⟨run, List.mem_cons_of_mem _ hrun, hh⟩

/-- The transactions of open runs were begun. -/
theorem began_of_accepts (hds : Program.Accepts Nests runs ds runs')
    (hh : ∃ run ∈ runs', run.progress.handle? = some h) :
    h.began ∈ ds ∨ ∃ run ∈ runs, run.progress.handle? = some h := by
  induction ds generalizing runs with
  | nil =>
    obtain rfl := hds
    exact .inr hh
  | cons d ds ih =>
    obtain ⟨m, hd, hds⟩ := hds
    rcases ih hds with hbegan | ⟨run, hrun, hhandle⟩
    · exact .inl (List.mem_cons_of_mem _ hbegan)
    · rcases hd.handle_cases hrun hhandle with rfl | hbefore
      · exact .inl List.mem_cons_self
      · exact .inr hbefore

/-- The transaction that work is given was begun before. -/
theorem began_of_given (hds : Program.Accepts Nests [] ds runs)
    (hruns : (innermost? outer ≠ some h.store ∧ runs = ⟨h.store, .begun h⟩ :: outer) ∨
      runs = ⟨h.store, .apart⟩ :: ⟨h.store, .working h⟩ :: outer) : h.began ∈ ds := by
  have hheld : ∃ run ∈ runs, run.progress.handle? = some h := by
    rcases hruns with ⟨-, rfl⟩ | rfl
    · exact ⟨_, List.mem_cons_self, rfl⟩
    · exact ⟨_, List.mem_cons_of_mem _ List.mem_cons_self, rfl⟩
  rcases began_of_accepts hds hheld with hbegan | ⟨run, hrun, -⟩
  · exact hbegan
  · exact absurd hrun List.not_mem_nil

/-- A transaction is begun by the innermost run, inside none or one on another store. -/
theorem Nests.of_begin {store : Nat} {context : TransactionContext}
    {x : Reply (Marked W) (.database store (.begin context))}
    (hd : Nests (W := W) runs (.call (.database store (.begin context)) x) runs') :
    ∃ outer, runs = ⟨store, .apart⟩ :: outer ∧ innermost? outer ≠ some store := by
  cases hd with
  | inner runs d hd => exact absurd rfl hd
  | refused outer store context e hout => exact ⟨outer, rfl, hout⟩
  | begun outer store n context hout => exact ⟨outer, rfl, hout⟩
  | ended outer h hout r hr x => cases hr

/-- Work is given the transaction that its run has begun, or that of the run around it. -/
theorem Nests.of_given (hd : Nests (W := W) runs (Mark.given h).deed runs') :
    ∃ outer, (innermost? outer ≠ some h.store ∧ runs = ⟨h.store, .begun h⟩ :: outer) ∨
      runs = ⟨h.store, .apart⟩ :: ⟨h.store, .working h⟩ :: outer := by
  cases hd with
  | inner runs d hd => exact hd.elim
  | given outer h hout => exact ⟨outer, .inl ⟨hout, rfl⟩⟩
  | joined outer h => exact ⟨outer, .inr rfl⟩

variable {before rest : List (Deed (service (Marked W)))}

/-- The begin of a transaction gives it one holder, the innermost run, if it had none before. -/
theorem Nests.of_began {store n : Nat} {context : TransactionContext}
    (hd : Nests (W := W) runs (.call (.database store (.begin context)) (.ok n)) runs')
    (hnone : holders home (home store, n) runs = []) :
    holders home (home store, n) runs' = [(⟨store, n, context⟩, runs.tail)] := by
  cases hd with
  | inner runs d hd => exact absurd rfl hd
  | begun outer store n context hout =>
    rw [holders, owners_alone _ hout] at hnone ⊢
    simpa [Progress.handle?, Handle.transaction] using hnone
  | ended outer k hout r hr x => cases hr

/-- The end of a transaction is a deed of the run that began it: the open runs around it are those
around the begin. -/
theorem end_of_began (hds : Program.Accepts Nests [] (before ++ h.began :: rest) runs)
    (honce : ((before ++ h.began :: rest).filterMap (Deed.begun? home)).Nodup)
    (hd : d ∈ before ++ h.began :: rest) (hends : d.ends? home = some (h.transaction home)) :
    d.EndOf h ∧ ∃ ws after, rest = ws ++ d :: after ∧
      openRuns (before ++ h.began :: ws) = ⟨h.store, .working h⟩ :: (openRuns before).tail := by
  have hbegan : Deed.begun? home (h.began : Deed (service (Marked W))) =
      some (h.transaction home) := rfl
  rw [List.filterMap_append, List.filterMap_cons_some hbegan] at honce
  obtain ⟨-, hafter, hdisjoint⟩ := List.nodup_append.1 honce
  have hbefore : ∀ d ∈ before, d.begun? home ≠ some (h.transaction home) := fun d hd hb =>
    hdisjoint _ (List.mem_filterMap.2 ⟨d, hd, hb⟩) _ List.mem_cons_self rfl
  have hrest : ∀ d ∈ rest, d.begun? home ≠ some (h.transaction home) := fun d hd hb =>
    (List.nodup_cons.1 hafter).1 (List.mem_filterMap.2 ⟨d, hd, hb⟩)
  obtain ⟨m, hm, hbegin, hlast⟩ := nests_of_accepts hds
  obtain ⟨hnone, hnot⟩ := not_ends_of_accepts hm hbefore rfl
  have hd : d ∈ rest := by
    rcases List.mem_append.1 hd with hd | hd
    · exact absurd hends (hnot d hd)
    · rcases List.mem_cons.1 hd with rfl | hd
      · cases hends
      · exact hd
  obtain ⟨hend, ws, after, rfl, hws⟩ := end_of_accepts hlast hrest (hbegin.of_began hnone) hd hends
  have hall : Program.Accepts Nests [] (before ++ h.began :: ws)
      (⟨h.store, .working h⟩ :: (openRuns before).tail) :=
    Program.accepts_append.2 ⟨_, hm, m, hbegin, hws⟩
  exact ⟨hend, ws, after, rfl, (openRuns_of_accepts hall).symm⟩

/-- A transaction that a task has begun is committed exactly if the run that began it commits it. -/
theorem committedIn_iff_of_began {rows : Nat → Rows}
    {tasks : Nat → Option (Program (service (Marked W)) α)}
    {c : Crowd (service (Marked W)) Shared (Circumstances (Marked W)) α}
    (hc : Orderly home rows tasks c) {who : Nat}
    (hds : Program.Accepts Nests [] (Crowd.deeds who c.log) runs)
    (hsplit : Crowd.deeds who c.log = before ++ h.began :: rest) :
    Provenance.CommittedIn home c.log (h.transaction home) ↔
      ∃ ws after, rest = ws ++ h.committed :: after ∧
      openRuns (before ++ h.began :: ws) = ⟨h.store, .working h⟩ :: (openRuns before).tail := by
  constructor
  · rintro ⟨e, he, hcommit⟩
    have hends := Deed.ends?_of_commit? hcommit
    -- it is committed by the program that began it, so by this task
    have hbegan : h.began ∈ Crowd.deeds who c.log := by
      rw [hsplit]
      exact List.mem_append_right _ List.mem_cons_self
    obtain ⟨b, hb, hbwho, hbdeed⟩ := Crowd.mem_deeds.1 hbegan
    have hwho : e.who = who := by
      rw [hc.ended_by_beginner hb he (by rw [hbdeed]; rfl) hends, hbwho]
    have hmem : e.deed ∈ before ++ h.began :: rest := hsplit ▸ Crowd.mem_deeds.2 ⟨e, he, hwho, rfl⟩
    obtain ⟨hend, ws, after, hrest, hruns⟩ := end_of_began (hsplit ▸ hds)
      (hsplit ▸ begun_once_deeds hc.recorded who) hmem hends
    exact ⟨ws, after, hend.eq_committed hcommit ▸ hrest, hruns⟩
  · rintro ⟨ws, after, rfl, -⟩
    have hmem : h.committed ∈ Crowd.deeds who c.log := by
      rw [hsplit]
      exact List.mem_append_right _
        (List.mem_cons_of_mem _ (List.mem_append_right _ List.mem_cons_self))
    obtain ⟨e, he, -, hdeed⟩ := Crowd.mem_deeds.1 hmem
    exact ⟨e, he, by rw [hdeed]; rfl⟩

end Run

/-- **Runs inside runs.** Take any tree of runs in a task of its own, among any programs that end
only what they began, on databases with any rows, and any schedule. A run begins a transaction only
when the run around it, if there is one, is on another store; otherwise its work is given the
transaction of the run around it. A transaction is committed exactly if the run that began it, with
the same runs around it, commits it after its work, and then with exactly the writes made through
the handle, those of the runs that were given it included. -/
theorem nested_runs_share [TransactionFailure ε] (home : Nat → Nat) (rows : Nat → Rows)
    (interval : Nat) (tasks : Nat → Option (Program (service (Marked W)) α)) (t : RunTree W ε α)
    (who : Nat) (hwho : tasks who = some (t.action none))
    (hothers : ∀ i p, i ≠ who → tasks i = some p → EndsOwn home [] p)
    (ms : List (Move (Circumstances (Marked W)))) :
    let start := Crowd.start (.opening rows interval) tasks
    let c := start.play (setting home) ms
    let ds := Crowd.deeds who c.log
    (∀ before after store context x, ds = before ++
      .call (.database store (.begin context)) x :: after →
      ∃ outer, openRuns before = ⟨store, .apart⟩ :: outer ∧ innermost? outer ≠ some store) ∧
    (∀ before after h, ds = before ++ (Mark.given h).deed :: after → h.began ∈ before ∧
      ∃ outer, (innermost? outer ≠ some h.store ∧ openRuns before = ⟨h.store, .begun h⟩ :: outer) ∨
        openRuns before = ⟨h.store, .apart⟩ :: ⟨h.store, .working h⟩ :: outer) ∧
    ∀ before rest h, ds = before ++ h.began :: rest →
      (Provenance.CommittedIn home c.log (h.transaction home) ↔
        ∃ ws after, rest = ws ++ h.committed :: after ∧
        openRuns (before ++ h.began :: ws) = ⟨h.store, .working h⟩ :: (openRuns before).tail) ∧
      ∀ ws after, rest = ws ++ h.committed :: after → Exact home who start ms h ws := by
  intro start c ds
  have hc : Orderly home rows tasks c := .of_task hwho (t.endsOwn home none) hothers interval ms
  obtain ⟨q, htakes, -⟩ := hc.takes hwho
  obtain ⟨last, hds, -⟩ : ∃ last, Program.Accepts Nests [] ds last ∧ _ :=
    (t.nests (.inl ⟨rfl, rfl⟩)).takes htakes
  refine ⟨fun before after store context x hsplit => ?_, fun before after h hsplit => ?_,
    fun before rest h hsplit => ⟨committedIn_iff_of_began hc hds hsplit, fun ws after hrest => ?_⟩⟩
  · obtain ⟨m, -, hbegin, -⟩ := nests_of_accepts (hsplit ▸ hds)
    exact hbegin.of_begin
  · obtain ⟨m, hbefore, hgiven, -⟩ := nests_of_accepts (hsplit ▸ hds)
    obtain ⟨outer, hcases⟩ := hgiven.of_given
    exact ⟨began_of_given hbefore hcases, outer, hcases⟩
  · rw [hrest] at hsplit
    exact exact_of_deeds hsplit

/-! ### Two trees -/

/-- The handle of the transaction that a deed has begun. -/
def Deed.began? : Deed (service (Marked W)) → Option Handle
  | .call (.database store (.begin context)) (.ok n) => some ⟨store, n, context⟩
  | _ => none

/-- The handle that a deed announces as given. -/
def Deed.given? : Deed (service (Marked W)) → Option Handle
  | .call (.other (.inl (.given h))) _ => some h
  | _ => none

section Deeds

variable {h : Handle} {d : Deed (service (Marked W))} {ds : List (Deed (service (Marked W)))}
variable {n : Nat}

theorem Deed.eq_began (hd : d.began? = some h) : d = h.began := by
  unfold began? at hd
  split at hd
  · cases hd
    rfl
  · cases hd

theorem Deed.eq_given (hd : d.given? = some h) : d = (Mark.given h).deed := by
  unfold given? at hd
  split at hd
  · cases hd
    rfl
  · cases hd

theorem exists_split {f : Deed (service (Marked W)) → Option Handle}
    (hn : (ds[n]?).bind f = some h) :
    ∃ d, f d = some h ∧ ds = ds.take n ++ d :: ds.drop (n + 1) := by
  obtain ⟨d, hd, hf⟩ := Option.bind_eq_some_iff.1 hn
  obtain ⟨hlt, rfl⟩ := List.getElem?_eq_some_iff.1 hd
  exact ⟨ds[n], hf, by simp⟩

theorem committedIn_iff {home : Nat → Nat}
    {log : List (Step (service (Marked W)) (Circumstances (Marked W)))} {t : Nat × Nat} :
    Provenance.CommittedIn home log t ↔ t ∈ log.filterMap fun e => e.deed.commit? home :=
  List.mem_filterMap.symm

end Deeds

/-- A runner on a store, for work that announces where it is. -/
def runnerOn (store : Nat) : Runner (Action (Marked Nothing)) where
  store := store
  ask r _ := .ask (S := service (Marked Nothing)) (.database store r)
  classify := Conflict.classify
  backoff := .none
  draw _ := 0
  observe _ _ _ := .done ()

theorem reticent_runnerOn (store : Nat) : Reticent (runnerOn store) where
  asks _ _ := rfl
  observes _ _ _ := trivial
  silent _ _ _ := trivial

/-- A run on a store, with its result as the result. -/
def runOn (store : Nat) (work : Handle → RunTree Nothing Failure (Except Failure UInt8)) :
    RunTree Nothing Failure (Except Failure UInt8) :=
  .run (runnerOn store) (reticent_runnerOn store) .standard work .done

/-- Work that inserts a row. -/
def insertOne (h : Handle) : RunTree Nothing Failure (Except Failure UInt8) :=
  .ask (.database h.store (.insert h.tx "t" (.new "a" [])))
    (Option.some_ne_none _) fun _ => .done (.ok 7)

/-- The epoch, for tasks that announce where they are. -/
def announced : Circumstances (Marked Nothing) where
  now := .epoch
  timer := 0
  other
    | .inl _ => ()
    | .inr r => r.elim

/-- A tree as the only task. -/
def onlyTree (t : RunTree Nothing Failure (Except Failure UInt8)) (i : Nat) :
    Option (Program (service (Marked Nothing)) (Except Failure UInt8)) :=
  if i = 0 then some (t.action none) else none

theorem onlyTree_of_ne (t : RunTree Nothing Failure (Except Failure UInt8)) {i : Nat} (hi : i ≠ 0) :
    onlyTree t i = none := if_neg hi

/-- The tree after some steps, on databases without rows. -/
def playTree (t : RunTree Nothing Failure (Except Failure UInt8)) (steps : Nat) :
    Crowd (service (Marked Nothing)) Shared (Circumstances (Marked Nothing))
      (Except Failure UInt8) :=
  (Crowd.start (.opening (fun _ => .empty) 4) (onlyTree t)).play (setting id)
    (List.replicate steps (.step 0 announced))

/-- A run right inside another one on its store is given the transaction of that one, and commits
with it. -/
theorem nested_runs_share_joined :
    let c := playTree (runOn 0 fun _ => runOn 0 insertOne) 9
    let h : Handle := ⟨0, 0, RunSpec.standard.context 1⟩
    (∃ outer, openRuns ((Crowd.deeds 0 c.log).take 4) = ⟨0, .apart⟩ :: ⟨0, .working h⟩ :: outer) ∧
      Provenance.CommittedIn id c.log (0, 0) ∧
      ∃ ws, Exact id 0 (Crowd.start (.opening (fun _ => .empty) 4)
        (onlyTree (runOn 0 fun _ => runOn 0 insertOne)))
        (List.replicate 9 (.step 0 announced)) h ws := by
  have hothers : ∀ i p, i ≠ 0 → onlyTree (runOn 0 fun _ => runOn 0 insertOne) i = some p →
      EndsOwn id [] p := by
    intro i p hi hp
    rw [onlyTree_of_ne _ hi] at hp
    cases hp
  have hrun := nested_runs_share id (fun _ => .empty) 4
    (onlyTree (runOn 0 fun _ => runOn 0 insertOne)) (runOn 0 fun _ => runOn 0 insertOne) 0 rfl
    hothers (List.replicate 9 (.step 0 announced))
  have hgiven :
      ((Crowd.deeds 0 (playTree (runOn 0 fun _ => runOn 0 insertOne) 9).log)[4]?).bind Deed.given? =
      some ⟨0, 0, RunSpec.standard.context 1⟩ := by decide +kernel
  have hstores :
      (openRuns ((Crowd.deeds 0 (playTree (runOn 0 fun _ => runOn 0 insertOne) 9).log).take 4)).map
      (·.store) = [0, 0] := by decide +kernel
  have hcommitted :
      Provenance.CommittedIn id (playTree (runOn 0 fun _ => runOn 0 insertOne) 9).log (0, 0) :=
    committedIn_iff.2 (by decide +kernel)
  dsimp only at hrun ⊢
  obtain ⟨d, hd, hsplit⟩ := exists_split hgiven
  rw [Deed.eq_given hd] at hsplit
  obtain ⟨hbegan, outer, hcases⟩ := hrun.2.1 _ _ _ hsplit
  refine ⟨⟨outer, hcases.resolve_left ?_⟩, hcommitted, ?_⟩
  · -- the run around it is on the same store
    rintro ⟨hout, hruns⟩
    rw [hruns] at hstores
    obtain ⟨-, hrest⟩ := List.cons.inj hstores
    obtain ⟨run, rfl, hrun⟩ := List.map_eq_singleton_iff.1 hrest
    exact hout (congrArg some hrun)
  · obtain ⟨before, mid, hbefore⟩ := List.append_of_mem hbegan
    rw [hbefore, List.append_assoc, List.cons_append] at hsplit
    obtain ⟨hiff, hexact⟩ := hrun.2.2 _ _ _ hsplit
    obtain ⟨ws, after, hrest, -⟩ := hiff.1 hcommitted
    exact ⟨ws, hexact ws after hrest⟩

/-- Work that runs other work on a store, and fails when that has succeeded. -/
def declining (store : Nat) (work : Handle → RunTree Nothing Failure (Except Failure UInt8))
    (_ : Handle) : RunTree Nothing Failure (Except Failure UInt8) :=
  .run (runnerOn store) (reticent_runnerOn store) .standard work fun _ =>
    .done (.error (.rejected "declined"))

/-- With a run on another store in between, the inner run begins a transaction of its own while the
work of the outer one is executing. The row that it inserts stays, though the outer run fails and
its transaction is not committed. -/
theorem interrupted_nesting_commits_apart :
    let c := playTree (runOn 0 (declining 1 fun _ => runOn 0 insertOne)) 16
    let ds := Crowd.deeds 0 c.log
    (¬ ∀ before after store context x, ds = before ++
      .call (.database store (.begin context)) x :: after →
      ∀ run ∈ (openRuns before).tail, run.store ≠ store) ∧
    ((c.tasks 0).map Program.isDone = some true ∧ (c.tasks 0).bind Program.value? = none) ∧
    ¬ Provenance.CommittedIn id c.log (0, 0) ∧
    Provenance.CommittedIn id c.log (0, 1) ∧
    ((c.state.databases 0).get? "t" "a").isSome = true := by
  have hbegan :
      ((Crowd.deeds 0
        (playTree (runOn 0 (declining 1 fun _ => runOn 0 insertOne)) 16).log)[7]?).bind
          Deed.began? = some ⟨0, 1, RunSpec.standard.context 1⟩ := by decide +kernel
  have hstores :
      0 ∈ (openRuns ((Crowd.deeds 0
        (playTree (runOn 0 (declining 1 fun _ => runOn 0 insertOne)) 16).log).take 7)).tail.map
          (·.store) := by
    decide +kernel
  refine ⟨fun hclaim => ?_, ⟨by decide +kernel, by decide +kernel⟩, fun hcommitted => ?_,
    committedIn_iff.2 (by decide +kernel), by decide +kernel⟩
  · obtain ⟨d, hd, hsplit⟩ := exists_split hbegan
    rw [Deed.eq_began hd] at hsplit
    obtain ⟨run, hrun, hstore⟩ := List.mem_map.1 hstores
    exact hclaim _ _ _ _ _ hsplit run hrun hstore
  · exact absurd (committedIn_iff.1 hcommitted) (by decide +kernel)

end GuardedWrites
