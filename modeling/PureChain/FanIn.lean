import Mathlib.Data.List.Basic
import Mathlib.Data.List.Range
import Mathlib.Data.List.Nodup

/-!
# The fan-in of concurrent checks

`ValidateBody` and `ValidateState` end with the same code: a buffered channel
`validateRes` of capacity `len(validateFuns)`, one goroutine per check that sends the
check's result, and a loop that receives `len(validateFuns)` results and returns the first
non-nil one. A check reads only state that the call leaves unchanged, so `validateFuns`
lists the results in advance (`none` is a nil error) and a goroutine's run and send are
one step.

A state holds the caller's program point, the goroutines spawned and the buffer; `step`
runs one thread, `none` when it blocks or has exited.
-/

namespace FanIn

variable {E : Type}

/-- The calling goroutine: in the spawning `range` loop at index `k`, in the receive loop
at iteration `i`, or returned with its result. -/
inductive Caller (E : Type) where
  | spawning (k : Nat)
  | receiving (i : Nat)
  | returned (r : Option E)
  deriving DecidableEq, Repr

/-- A check's goroutine: the index of the function copied into `tmpFunc`, and whether its
send on `validateRes` is done. -/
structure Goroutine where
  tmpFunc : Nat
  sent : Bool
  deriving DecidableEq, Repr

structure State (E : Type) where
  caller : Caller E
  goroutines : List Goroutine
  validateRes : List (Option E)
  deriving DecidableEq, Repr

inductive Thread where
  | caller
  | goroutine (j : Nat)
  deriving DecidableEq, Repr

def init : State E := ⟨.spawning 0, [], []⟩

/-- The value goroutine `g` sends: the result of the check it copied. -/
def result (validateFuns : List (Option E)) (g : Goroutine) : Option E :=
  validateFuns.getD g.tmpFunc none

def callerStep (validateFuns : List (Option E)) (s : State E) : Option (State E) :=
  match s.caller with
  | .spawning k =>
    if k < validateFuns.length then
      some { s with caller := .spawning (k + 1), goroutines := s.goroutines ++ [⟨k, false⟩] }
    else some { s with caller := .receiving 0 }
  | .receiving i =>
    if i < validateFuns.length then
      match s.validateRes with
      | [] => none
      | some e :: rest => some { s with caller := .returned (some e), validateRes := rest }
      | none :: rest => some { s with caller := .receiving (i + 1), validateRes := rest }
    else some { s with caller := .returned none }
  | .returned _ => none

/-- Goroutine `j` runs its check and sends; it blocks while the buffer is full. -/
def goroutineStep (validateFuns : List (Option E)) (s : State E) (j : Nat) :
    Option (State E) :=
  match s.goroutines[j]? with
  | some g =>
    if g.sent = false ∧ s.validateRes.length < validateFuns.length then
      some { s with goroutines := s.goroutines.set j { g with sent := true },
                    validateRes := s.validateRes ++ [result validateFuns g] }
    else none
  | none => none

def step (validateFuns : List (Option E)) (s : State E) : Thread → Option (State E)
  | .caller => callerStep validateFuns s
  | .goroutine j => goroutineStep validateFuns s j

/-- Run an interleaving; `none` if it schedules a blocked or exited thread. -/
@[simp] def exec (validateFuns : List (Option E)) : State E → List Thread → Option (State E)
  | s, [] => some s
  | s, t :: ts => (step validateFuns s t).bind (exec validateFuns · ts)

inductive Reachable (validateFuns : List (Option E)) : State E → Prop
  | init : Reachable validateFuns init
  | step {s s' : State E} {t : Thread} :
      Reachable validateFuns s → step validateFuns s t = some s' → Reachable validateFuns s'

/-- `r` is what the caller returns under some interleaving. -/
def Returns (validateFuns : List (Option E)) (r : Option E) : Prop :=
  ∃ s, Reachable validateFuns s ∧ s.caller = .returned r

/-- The result of a validation function that either returns early with an error or builds
its `validateFuns` and fans them in. -/
def Outcome (pre : Except E (List (Option E))) (r : Option E) : Prop :=
  match pre with
  | .error e => r = some e
  | .ok validateFuns => Returns validateFuns r

/-- The caller has returned and every goroutine has sent and exited. -/
def Final (validateFuns : List (Option E)) (s : State E) : Prop :=
  (∃ r, s.caller = .returned r) ∧ s.goroutines.length = validateFuns.length ∧
    ∀ g ∈ s.goroutines, g.sent = true

def sentCount (s : State E) : Nat := s.goroutines.countP Goroutine.sent

/-! ## What one step can do -/

variable {validateFuns : List (Option E)} {s s' : State E}

theorem result_mem {g : Goroutine} {e : E}
    (h : result validateFuns g = some e) : some e ∈ validateFuns := by
  rw [result, List.getD_eq_getElem?_getD] at h
  cases hx : validateFuns[g.tmpFunc]? with
  | none => simp [hx] at h
  | some x =>
    simp only [hx, Option.getD_some] at h
    exact List.mem_iff_getElem?.mpr ⟨_, h ▸ hx⟩

theorem callerStep_cases
    (h : callerStep validateFuns s = some s') :
    (∃ k, s.caller = .spawning k ∧ k < validateFuns.length ∧ s' =
      { s with caller := .spawning (k + 1), goroutines := s.goroutines ++ [⟨k, false⟩] }) ∨
    (∃ k, s.caller = .spawning k ∧ validateFuns.length ≤ k ∧
      s' = { s with caller := .receiving 0 }) ∨
    (∃ i e rest, s.caller = .receiving i ∧ i < validateFuns.length ∧
      s.validateRes = some e :: rest ∧
      s' = { s with caller := .returned (some e), validateRes := rest }) ∨
    (∃ i rest, s.caller = .receiving i ∧ i < validateFuns.length ∧
      s.validateRes = none :: rest ∧
      s' = { s with caller := .receiving (i + 1), validateRes := rest }) ∨
    (∃ i, s.caller = .receiving i ∧ validateFuns.length ≤ i ∧
      s' = { s with caller := .returned none }) := by
  unfold callerStep at h
  split at h
  · rename_i k hk
    split at h
    · exact .inl ⟨k, hk, ‹_›, (Option.some.inj h).symm⟩
    · exact .inr (.inl ⟨k, hk, by omega, (Option.some.inj h).symm⟩)
  · rename_i i hi
    split at h
    · split at h
      · cases h
      · exact .inr (.inr (.inl ⟨i, _, _, hi, ‹_›, ‹_›, (Option.some.inj h).symm⟩))
      · exact .inr (.inr (.inr (.inl ⟨i, _, hi, ‹_›, ‹_›, (Option.some.inj h).symm⟩)))
    · exact .inr (.inr (.inr (.inr ⟨i, hi, by omega, (Option.some.inj h).symm⟩)))
  · cases h

theorem goroutineStep_cases {j : Nat}
    (h : goroutineStep validateFuns s j = some s') :
    ∃ g, s.goroutines[j]? = some g ∧ g.sent = false ∧
      s.validateRes.length < validateFuns.length ∧
      s' = { s with goroutines := s.goroutines.set j { g with sent := true },
                    validateRes := s.validateRes ++ [result validateFuns g] } := by
  unfold goroutineStep at h
  split at h
  · rename_i g hg
    split at h
    · rename_i hc
      exact ⟨g, hg, hc.1, hc.2, (Option.some.inj h).symm⟩
    · cases h
  · cases h

/-! ## The invariant -/

/-- Before the caller returns, having received `i` nil results: the buffer holds every
result sent and not yet received, and every error sent so far is still in it. -/
structure Pending (validateFuns : List (Option E)) (s : State E) (i : Nat) : Prop where
  count : i + s.validateRes.length = sentCount s
  errors : ∀ g ∈ s.goroutines, g.sent = true → ∀ e,
    result validateFuns g = some e → some e ∈ s.validateRes

/-- What the caller's program point says about the goroutines and the buffer. -/
def CallerOk (validateFuns : List (Option E)) (s : State E) : Caller E → Prop
  | .spawning k => k = s.goroutines.length ∧ Pending validateFuns s 0
  | .receiving i => s.goroutines.length = validateFuns.length ∧ i ≤ validateFuns.length ∧
      Pending validateFuns s i
  | .returned none => s.goroutines.length = validateFuns.length ∧ s.validateRes = [] ∧
      (∀ g ∈ s.goroutines, g.sent = true) ∧ ∀ x ∈ validateFuns, x = none
  | .returned (some e) => s.goroutines.length = validateFuns.length ∧ some e ∈ validateFuns

structure Inv (validateFuns : List (Option E)) (s : State E) : Prop where
  spawnOrder : s.goroutines.map (·.tmpFunc) = List.range s.goroutines.length
  spawned_le : s.goroutines.length ≤ validateFuns.length
  buffered_le : s.validateRes.length ≤ sentCount s
  buffered_mem : ∀ e, some e ∈ s.validateRes → some e ∈ validateFuns
  caller : CallerOk validateFuns s s.caller

theorem inv_init (validateFuns : List (Option E)) : Inv validateFuns init :=
  ⟨rfl, Nat.zero_le _, Nat.le_refl _, by simp [init], rfl, ⟨rfl, by simp [init]⟩⟩

theorem Inv.exists_goroutine (inv : Inv validateFuns s) {k : Nat} (hk : k < s.goroutines.length) :
    ∃ g ∈ s.goroutines, g.tmpFunc = k := by
  have : k ∈ s.goroutines.map (·.tmpFunc) := by simpa [inv.spawnOrder] using hk
  simpa using this

theorem sentCount_lt {g : Goroutine} (hg : g ∈ s.goroutines)
    (hs : g.sent = false) : sentCount s < s.goroutines.length := by
  have hle := List.countP_le_length Goroutine.sent (l := s.goroutines)
  have hne : sentCount s ≠ s.goroutines.length := fun h => by
    simp [List.countP_eq_length.mp h g hg] at hs
  unfold sentCount at hne ⊢
  omega

/-! ### Sends -/

theorem map_tmpFunc_set {l : List Goroutine} {j : Nat} {g : Goroutine} (hg : l[j]? = some g)
    (b : Bool) : (l.set j { g with sent := b }).map (·.tmpFunc) = l.map (·.tmpFunc) := by
  obtain ⟨hj, rfl⟩ := List.getElem?_eq_some_iff.mp hg
  apply List.ext_getElem?
  intro n
  simp only [List.getElem?_map, List.getElem?_set]
  split_ifs with h1
  · subst h1; simp [List.getElem?_eq_getElem hj]
  · rfl

theorem countP_sent_set {l : List Goroutine} {j : Nat} {g : Goroutine} (hg : l[j]? = some g)
    (hs : g.sent = false) :
    (l.set j { g with sent := true }).countP Goroutine.sent = l.countP Goroutine.sent + 1 := by
  obtain ⟨hj, rfl⟩ := List.getElem?_eq_some_iff.mp hg
  rw [List.countP_set _ _ _ _ hj]
  simp [hs]

theorem Pending.send {i j : Nat} {g : Goroutine}
    (hp : Pending validateFuns s i) (hg : s.goroutines[j]? = some g) (hs : g.sent = false) :
    Pending validateFuns
      { s with goroutines := s.goroutines.set j { g with sent := true },
               validateRes := s.validateRes ++ [result validateFuns g] } i := by
  constructor
  · simp only [sentCount, countP_sent_set hg hs, List.length_append, List.length_singleton]
    have := hp.count
    unfold sentCount at this
    omega
  · intro g' hg' hsent e he
    rcases List.mem_or_eq_of_mem_set hg' with hg' | rfl
    · exact List.mem_append_left _ (hp.errors g' hg' hsent e he)
    · exact List.mem_append_right _ (by simp [← he, result])

theorem CallerOk.send {c : Caller E} {j : Nat}
    {g : Goroutine} (hc : CallerOk validateFuns s c) (hg : s.goroutines[j]? = some g)
    (hs : g.sent = false) :
    CallerOk validateFuns
      { s with goroutines := s.goroutines.set j { g with sent := true },
               validateRes := s.validateRes ++ [result validateFuns g] } c := by
  match c, hc with
  | .spawning _, ⟨hk, hp⟩ => exact ⟨by simpa using hk, hp.send hg hs⟩
  | .receiving _, ⟨hn, hi, hp⟩ => exact ⟨by simpa using hn, hi, hp.send hg hs⟩
  | .returned none, ⟨_, _, hall, _⟩ =>
    exact absurd (hall g (List.mem_iff_getElem?.mpr ⟨j, hg⟩)) (by simp [hs])
  | .returned (some _), ⟨hn, he⟩ => exact ⟨by simpa using hn, he⟩

theorem inv_goroutineStep {j : Nat}
    (inv : Inv validateFuns s) (h : goroutineStep validateFuns s j = some s') :
    Inv validateFuns s' := by
  obtain ⟨g, hg, hs, -, rfl⟩ := goroutineStep_cases h
  refine ⟨by simpa [map_tmpFunc_set hg] using inv.spawnOrder, by simpa using inv.spawned_le,
    ?_, ?_, inv.caller.send hg hs⟩
  · simp only [sentCount, countP_sent_set hg hs, List.length_append, List.length_singleton]
    exact Nat.succ_le_succ inv.buffered_le
  · intro e he
    rcases List.mem_append.mp he with he | he
    · exact inv.buffered_mem e he
    · exact result_mem (List.mem_singleton.mp he).symm

/-! ### Caller steps -/

theorem Inv.received (inv : Inv validateFuns s) {x : Option E} {rest : List (Option E)}
    (hres : s.validateRes = x :: rest) :
    rest.length < sentCount s ∧ ∀ e, some e ∈ rest → some e ∈ validateFuns := by
  have hle := inv.buffered_le
  rw [hres, List.length_cons] at hle
  exact ⟨hle, fun e he => inv.buffered_mem e (by rw [hres]; exact List.mem_cons_of_mem _ he)⟩

/-- Once `n` nil results are received, every check has sent and none failed. -/
theorem Inv.all_nil (inv : Inv validateFuns s) (hn : s.goroutines.length = validateFuns.length)
    (hp : Pending validateFuns s validateFuns.length) :
    s.validateRes = [] ∧ (∀ g ∈ s.goroutines, g.sent = true) ∧
      ∀ x ∈ validateFuns, x = none := by
  have hle := List.countP_le_length Goroutine.sent (l := s.goroutines)
  have hcount := hp.count
  unfold sentCount at hcount
  have hempty : s.validateRes = [] := List.eq_nil_of_length_eq_zero (by omega)
  have hall : ∀ g ∈ s.goroutines, g.sent = true := List.countP_eq_length.mp (by omega)
  refine ⟨hempty, hall, fun x hx => ?_⟩
  obtain ⟨k, hk⟩ := List.mem_iff_getElem?.mp hx
  obtain ⟨g, hg, rfl⟩ := inv.exists_goroutine
    (hn ▸ (List.getElem?_eq_some_iff.mp hk).1)
  cases x with
  | none => rfl
  | some e =>
    have := hp.errors g hg (hall g hg) e (by simp [result, List.getD_eq_getElem?_getD, hk])
    simp [hempty] at this

theorem inv_callerStep
    (inv : Inv validateFuns s) (h : callerStep validateFuns s = some s') :
    Inv validateFuns s' := by
  have hc := inv.caller
  rcases callerStep_cases h with ⟨k, hk, hlt, rfl⟩ | ⟨k, hk, hge, rfl⟩ |
    ⟨i, e, rest, hi, -, hres, rfl⟩ | ⟨i, rest, hi, hlt, hres, rfl⟩ | ⟨i, hi, hge, rfl⟩
  · -- spawn the goroutine of check `k`
    rw [hk] at hc
    obtain ⟨rfl, hp⟩ := hc
    have hsent :
        sentCount { s with goroutines := s.goroutines ++ [⟨s.goroutines.length, false⟩] } =
          sentCount s := by simp [sentCount]
    refine ⟨by simp [List.range_succ, inv.spawnOrder], by simp; omega,
      hsent ▸ inv.buffered_le, inv.buffered_mem, by simp, ⟨hsent ▸ hp.count, ?_⟩⟩
    intro g hg hs e he
    rcases List.mem_append.mp hg with hg | hg
    · exact hp.errors g hg hs e he
    · simp [List.mem_singleton.mp hg] at hs
  · -- leave the spawning loop
    rw [hk] at hc
    obtain ⟨rfl, hp⟩ := hc
    exact ⟨inv.spawnOrder, inv.spawned_le, inv.buffered_le, inv.buffered_mem,
      Nat.le_antisymm inv.spawned_le hge, Nat.zero_le _, hp.count, hp.errors⟩
  · -- receive an error and return it
    rw [hi] at hc
    obtain ⟨hlen, hmem⟩ := inv.received hres
    exact ⟨inv.spawnOrder, inv.spawned_le, Nat.le_of_lt hlen, hmem, hc.1,
      inv.buffered_mem e (by rw [hres]; exact List.mem_cons_self _ _)⟩
  · -- receive a nil result
    rw [hi] at hc
    obtain ⟨hn, -, hp⟩ := hc
    obtain ⟨hlen, hmem⟩ := inv.received hres
    refine ⟨inv.spawnOrder, inv.spawned_le, Nat.le_of_lt hlen, hmem, hn, hlt, ?_, ?_⟩
    · have := hp.count
      rw [hres, List.length_cons] at this
      show i + 1 + rest.length = sentCount s
      omega
    · intro g hg hs e he
      have := hp.errors g hg hs e he
      rw [hres] at this
      simpa using this
  · -- leave the receive loop and return nil
    rw [hi] at hc
    obtain ⟨hn, hle, hp⟩ := hc
    obtain rfl : i = validateFuns.length := by omega
    exact ⟨inv.spawnOrder, inv.spawned_le, by simp [(inv.all_nil hn hp).1], inv.buffered_mem,
      hn, inv.all_nil hn hp⟩

theorem inv_step {t : Thread}
    (inv : Inv validateFuns s) (h : step validateFuns s t = some s') : Inv validateFuns s' := by
  cases t with
  | caller => exact inv_callerStep inv h
  | goroutine j => exact inv_goroutineStep inv h

theorem Reachable.inv (h : Reachable validateFuns s) : Inv validateFuns s := by
  induction h with
  | init => exact inv_init validateFuns
  | step _ hstep ih => exact inv_step ih hstep

/-! ## Progress and termination -/

/-- A goroutine that has not sent can always send: the buffer is never full. -/
theorem Inv.send_enabled (inv : Inv validateFuns s) {j : Nat} {g : Goroutine}
    (hg : s.goroutines[j]? = some g) (hs : g.sent = false) :
    ∃ s', goroutineStep validateFuns s j = some s' := by
  have hlt := sentCount_lt (List.mem_iff_getElem?.mpr ⟨j, hg⟩) hs
  have hbuf : s.validateRes.length < validateFuns.length := by
    have := inv.buffered_le
    have := inv.spawned_le
    omega
  simp [goroutineStep, hg, hs, hbuf]

/-- A caller blocked on an empty buffer leaves a goroutine that has not sent. -/
theorem Inv.unsent_of_empty (inv : Inv validateFuns s) {i : Nat} (hc : s.caller = .receiving i)
    (hi : i < validateFuns.length) (hres : s.validateRes = []) :
    ∃ g ∈ s.goroutines, g.sent = false := by
  have h := inv.caller
  rw [hc] at h
  obtain ⟨hn, -, hp⟩ := h
  have hcount := hp.count
  rw [hres] at hcount
  by_contra hall
  push_neg at hall
  have : sentCount s = s.goroutines.length :=
    List.countP_eq_length.mpr fun g hg => by simpa using hall g hg
  simp at hcount
  omega

/-- No reachable state is stuck unless the caller has returned and every goroutine
has sent. -/
theorem Inv.progress (inv : Inv validateFuns s) :
    Final validateFuns s ∨ ∃ t s', step validateFuns s t = some s' := by
  by_cases hall : ∀ g ∈ s.goroutines, g.sent = true
  · have hc := inv.caller
    revert hc
    cases hcal : s.caller with
    | spawning k =>
      intro _
      refine .inr ⟨.caller, ?_⟩
      simp only [step, callerStep, hcal]
      split_ifs <;> exact ⟨_, rfl⟩
    | receiving i =>
      intro _
      refine .inr ⟨.caller, ?_⟩
      simp only [step, callerStep, hcal]
      split_ifs with hi
      · cases hres : s.validateRes with
        | nil =>
          obtain ⟨g, hg, hs⟩ := inv.unsent_of_empty hcal hi hres
          simp [hall g hg] at hs
        | cons x rest => cases x <;> exact ⟨_, rfl⟩
      · exact ⟨_, rfl⟩
    | returned r =>
      intro hc
      refine .inl ⟨⟨r, hcal⟩, ?_, hall⟩
      cases r with
      | none => exact hc.1
      | some e => exact hc.1
  · push_neg at hall
    obtain ⟨g, hg, hs⟩ := hall
    obtain ⟨j, hj⟩ := List.mem_iff_getElem?.mp hg
    exact .inr ⟨.goroutine j, inv.send_enabled hj (by simpa using hs)⟩

def callerRank (n : Nat) : Caller E → Nat
  | .spawning k => 2 * (n - k) + n + 2
  | .receiving i => n - i + 1
  | .returned _ => 0

/-- Loop iterations the caller has left, plus the goroutines still to send; a spawn trades
two units of the first for one of the second. -/
def measure (validateFuns : List (Option E)) (s : State E) : Nat :=
  callerRank validateFuns.length s.caller + s.goroutines.countP (fun g => !g.sent)

theorem measure_step_lt {t : Thread}
    (h : step validateFuns s t = some s') : measure validateFuns s' < measure validateFuns s := by
  cases t with
  | caller =>
    rcases callerStep_cases h with ⟨k, hc, hlt, rfl⟩ | ⟨k, hc, -, rfl⟩ |
      ⟨i, e, rest, hc, -, -, rfl⟩ | ⟨i, rest, hc, hlt, -, rfl⟩ | ⟨i, hc, -, rfl⟩ <;>
    simp [measure, callerRank, hc] <;> omega
  | goroutine j =>
    obtain ⟨g, hg, hs, -, rfl⟩ := goroutineStep_cases h
    obtain ⟨hj, rfl⟩ := List.getElem?_eq_some_iff.mp hg
    have hpos : 0 < s.goroutines.countP (fun g => !g.sent) :=
      List.countP_pos_iff.mpr ⟨_, List.getElem_mem hj, by simp [hs]⟩
    simp only [measure, List.countP_set _ _ _ _ hj, hs, Bool.not_false, Bool.not_true,
      if_true, Bool.false_eq_true, if_false]
    omega

theorem exec_cons {t : Thread}
    (h : step validateFuns s t = some s') (ts : List Thread) :
    exec validateFuns s (t :: ts) = exec validateFuns s' ts := by
  simp [h]

/-- Every interleaving is as long as the measure allows, at most. -/
theorem exec_length_le :
    ∀ {s s' : State E} {ts : List Thread}, exec validateFuns s ts = some s' →
      ts.length + measure validateFuns s' ≤ measure validateFuns s
  | s, s', [], h => by cases h; simp
  | s, s', t :: ts, h => by
    cases hs : step validateFuns s t with
    | none => simp [hs] at h
    | some s1 =>
      rw [exec_cons hs] at h
      have := exec_length_le h
      have := measure_step_lt hs
      simp only [List.length_cons]
      omega

theorem Reachable.exec :
    ∀ {s s' : State E} {ts : List Thread}, Reachable validateFuns s →
      FanIn.exec validateFuns s ts = some s' → Reachable validateFuns s'
  | s, s', [], hr, h => by cases h; exact hr
  | s, s', t :: ts, hr, h => by
    cases hs : FanIn.step validateFuns s t with
    | none => simp [hs] at h
    | some s1 => exact Reachable.exec (hr.step hs) (by rwa [exec_cons hs] at h)

/-- From every state satisfying the invariant, some interleaving reaches a final state. -/
theorem Inv.exec_final (inv : Inv validateFuns s) :
    ∃ ts s', exec validateFuns s ts = some s' ∧ Final validateFuns s' := by
  obtain ⟨m, hm⟩ : ∃ m, measure validateFuns s = m := ⟨_, rfl⟩
  induction m using Nat.strong_induction_on generalizing s with
  | _ m ih =>
    rcases inv.progress with hf | ⟨t, s', hs'⟩
    · exact ⟨[], s, rfl, hf⟩
    · obtain ⟨ts, s'', hexec, hf⟩ := ih _ (hm ▸ measure_step_lt hs') (inv_step inv hs') rfl
      exact ⟨t :: ts, s'', by rw [exec_cons hs']; exact hexec, hf⟩

/-! ## What the caller returns -/

theorem returns_exists (validateFuns : List (Option E)) : ∃ r, Returns validateFuns r := by
  obtain ⟨ts, s, hexec, ⟨r, hr⟩, -⟩ := (inv_init validateFuns).exec_final
  exact ⟨r, s, Reachable.init.exec hexec, hr⟩

/-- A nil result comes only after every check was spawned and sent, and only if none
failed. -/
theorem Reachable.returned_none (hs : Reachable validateFuns s) (hr : s.caller = .returned none) :
    s.goroutines.length = validateFuns.length ∧ (∀ g ∈ s.goroutines, g.sent = true) ∧
      ∀ x ∈ validateFuns, x = none := by
  have hc := hs.inv.caller
  rw [hr] at hc
  exact ⟨hc.1, hc.2.2⟩

theorem Returns.mem {e : E}
    (h : Returns validateFuns (some e)) : some e ∈ validateFuns := by
  obtain ⟨s, hs, hr⟩ := h
  have hc := hs.inv.caller
  rw [hr] at hc
  exact hc.2

theorem Returns.eq_none_iff {r : Option E}
    (h : Returns validateFuns r) : r = none ↔ ∀ x ∈ validateFuns, x = none := by
  cases r with
  | none =>
    obtain ⟨s, hs, hr⟩ := h
    exact ⟨fun _ => (hs.returned_none hr).2.2, fun _ => rfl⟩
  | some e => exact ⟨nofun, fun hall => nomatch hall _ h.mem⟩

theorem outcome_exists (pre : Except E (List (Option E))) : ∃ r, Outcome pre r := by
  cases pre with
  | error e => exact ⟨_, rfl⟩
  | ok validateFuns => exact returns_exists validateFuns

theorem Outcome.eq_none_iff {pre : Except E (List (Option E))} {r : Option E}
    (h : Outcome pre r) :
    r = none ↔ ∃ validateFuns, pre = .ok validateFuns ∧ ∀ x ∈ validateFuns, x = none := by
  cases pre with
  | error e => simp only [Outcome] at h; simp [h]
  | ok validateFuns => simpa using Returns.eq_none_iff h

@[simp] theorem exec_append (s : State E) (ts₁ ts₂ : List Thread) :
    exec validateFuns s (ts₁ ++ ts₂) =
      (exec validateFuns s ts₁).bind (exec validateFuns · ts₂) := by
  induction ts₁ generalizing s with
  | nil => rfl
  | cons t ts ih => cases hs : step validateFuns s t <;> simp [hs, ih]

theorem exec_spawning :
    ∀ (m j : Nat), j + m ≤ validateFuns.length →
      exec validateFuns ⟨.spawning j, (List.range j).map (⟨·, false⟩), []⟩
        (List.replicate m .caller) =
      some ⟨.spawning (j + m), (List.range (j + m)).map (⟨·, false⟩), []⟩
  | 0, j, _ => rfl
  | m + 1, j, h => by
    have hstep :
        step validateFuns ⟨.spawning j, (List.range j).map (⟨·, false⟩), []⟩ .caller =
          some ⟨.spawning (j + 1), (List.range (j + 1)).map (⟨·, false⟩), []⟩ := by
      simp [step, callerStep, show j < validateFuns.length by omega, List.range_succ]
    rw [List.replicate_succ, exec_cons hstep, exec_spawning m (j + 1) (by omega)]
    simp only [Nat.add_right_comm j 1 m, Nat.add_assoc]

/-- Every failing check's error is returned under some interleaving: its goroutine
sends first. -/
theorem returns_of_mem {e : E} (he : some e ∈ validateFuns) :
    Returns validateFuns (some e) := by
  obtain ⟨k, hk⟩ := List.mem_iff_getElem?.mp he
  have hkn := (List.getElem?_eq_some_iff.mp hk).1
  have hspawn := @exec_spawning E validateFuns validateFuns.length 0 (by omega)
  simp only [Nat.zero_add, List.range_zero, List.map_nil] at hspawn
  have hrun : exec validateFuns init
      (List.replicate validateFuns.length .caller ++ [.caller, .goroutine k, .caller]) =
      some ⟨.returned (some e),
        ((List.range validateFuns.length).map (⟨·, false⟩)).set k ⟨k, true⟩, []⟩ := by
    rw [exec_append, show (init : State E) = ⟨.spawning 0, [], []⟩ from rfl, hspawn]
    simp [step, callerStep, goroutineStep, hkn, List.getElem?_range hkn, result,
      List.getD_eq_getElem?_getD, hk, Nat.pos_of_ne_zero (by omega : validateFuns.length ≠ 0)]
  exact ⟨_, Reachable.init.exec hrun, rfl⟩

/-- The errors a validation function can return: its early error, or the error of any
failing check it fans in. -/
theorem outcome_some_iff {pre : Except E (List (Option E))} {e : E} :
    Outcome pre (some e) ↔ pre = .error e ∨ ∃ validateFuns, pre = .ok validateFuns ∧
      some e ∈ validateFuns := by
  cases pre with
  | error e' => simp [Outcome, eq_comm]
  | ok validateFuns => exact ⟨fun h => .inr ⟨_, rfl, h.mem⟩, by
      rintro (h | ⟨_, h, he⟩)
      · cases h
      · cases h; exact returns_of_mem he⟩

/-! ## Goroutines are never leaked and the fan-in never deadlocks -/

theorem Inv.spawned_all (inv : Inv validateFuns s) (hc : ∀ k, s.caller ≠ .spawning k) :
    s.goroutines.length = validateFuns.length := by
  have h := inv.caller
  revert h hc
  cases s.caller with
  | spawning k => exact fun hc => absurd rfl (hc k)
  | receiving i => exact fun _ h => h.1
  | returned r => cases r <;> exact fun _ h => h.1

/-- Once spawning is over, each check has exactly one goroutine: the one that copied it
into its `tmpFunc`. -/
theorem Inv.one_goroutine_per_check (inv : Inv validateFuns s)
    (hc : ∀ k, s.caller ≠ .spawning k) {k : Nat} (hk : k < validateFuns.length) :
    s.goroutines.countP (fun g => g.tmpFunc = k) = 1 := by
  have hmap : s.goroutines.countP (fun g => g.tmpFunc = k) =
      (s.goroutines.map (·.tmpFunc)).count k := by
    simp only [List.count, List.countP_map, Function.comp_def]
    congr 1
  rw [hmap, inv.spawnOrder, inv.spawned_all hc]
  exact List.count_eq_one_of_mem (List.nodup_range _) (List.mem_range.mpr hk)

theorem fanIn_never_blocks (validateFuns : List (Option E)) :
    (∀ s, Reachable validateFuns s → (∀ k, s.caller ≠ .spawning k) →
      ∀ k < validateFuns.length, s.goroutines.countP (fun g => g.tmpFunc = k) = 1) ∧
    (∀ s, Reachable validateFuns s → ∀ j g, s.goroutines[j]? = some g → g.sent = false →
      step validateFuns s (.goroutine j) ≠ none) ∧
    (∀ s i, Reachable validateFuns s → s.caller = .receiving i → i < validateFuns.length →
      s.validateRes = [] → ∃ g ∈ s.goroutines, g.sent = false) ∧
    (∀ s, Reachable validateFuns s →
      Final validateFuns s ∨ ∃ t s', step validateFuns s t = some s') ∧
    (∀ s, Reachable validateFuns s →
      ∃ ts s', exec validateFuns s ts = some s' ∧ Final validateFuns s') ∧
    (∀ ts s, exec validateFuns init ts = some s →
      ts.length ≤ 3 * validateFuns.length + 2) := by
  refine ⟨fun s hs hc k hk => hs.inv.one_goroutine_per_check hc hk, ?_,
    fun s i hs hc hi hres => hs.inv.unsent_of_empty hc hi hres, fun s hs => hs.inv.progress,
    fun s hs => hs.inv.exec_final, fun ts s h => ?_⟩
  · intro s hs j g hg hsent
    obtain ⟨s', h⟩ := hs.inv.send_enabled hg hsent
    simp [step, h]
  · have := exec_length_le h
    simp [measure, callerRank, init] at this
    omega

end FanIn
