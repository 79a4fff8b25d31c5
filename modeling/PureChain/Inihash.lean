import Mathlib.Data.List.Basic

/-!
# The remote-work API

`api.go` gives external miners three calls into the engine's remote sealer. Each sends its
request on one of the sealer's channels in a `select` against `exitCh`, then waits for the
reply without looking at `exitCh` again; without a remote sealer it answers at once.

The sealer's loop is not in this repository, so it is a parameter: its state, the reply it
leaves when it serves a request, and how its other inputs move it. The reply channels have
room for their one reply, so serving a request is one step, the call's linearization point.
A state holds every call made so far, the loop's state, and whether `exitCh` is closed; the
results hold for every loop and every interleaving.
-/

namespace PureChain.Inihash

variable {σ Input Work Nonce Hash LoopErr : Type}

/-- `GetWork`'s errors: `errors.New("not supported")`, `errEthashStopped`, or the sealer's. -/
inductive ApiError (LoopErr : Type) where
  | notSupported
  | stopped
  | loop (err : LoopErr)
  deriving DecidableEq, Repr

/-- The text of the errors `api.go` makes itself. -/
def ApiError.text : ApiError LoopErr → Option String
  | .notSupported => some "not supported"
  | .stopped => some "inihash stopped"
  | .loop _ => none

inductive Call (Nonce Hash : Type) where
  | getWork
  | submitWork (nonce : Nonce) (hash : Hash)
  | submitHashrate (rate : UInt64) (id : Hash)
  deriving DecidableEq, Repr

/-- What the sealer leaves in a call's reply channels: a package on `workCh`, a value on
`errc` (`none` is nil), or `done` closed. -/
inductive Reply (Work LoopErr : Type) where
  | res (work : Work)
  | errc (err : Option LoopErr)
  | done
  deriving DecidableEq, Repr

/-- What a call returns: `GetWork`'s package or error, or the `bool` of the other two. -/
inductive Answer (Work LoopErr : Type) where
  | work (r : Except (ApiError LoopErr) Work)
  | accepted (b : Bool)

/-- A call's program point: before `remote == nil`, in the first `select`, waiting, or
returned. -/
inductive Pc (Work LoopErr : Type) where
  | start
  | sending
  | waiting
  | returned (a : Answer Work LoopErr)

structure Caller (Work Nonce Hash LoopErr : Type) where
  call : Call Nonce Hash
  pc : Pc Work LoopErr
  reply : Option (Reply Work LoopErr)

/-! ## The three calls of `api.go` -/

/-- What sets the calls apart: the answers without a sealer and after `exitCh` closes, and
how the call reads its reply channels (`none` for a value it does not receive). -/
structure Method (Work LoopErr : Type) where
  unsupported : Answer Work LoopErr
  stopped : Answer Work LoopErr
  receive : Reply Work LoopErr → Option (Answer Work LoopErr)

/-- One step of a call's own code; `none` while it blocks and once it has returned. -/
def Method.step (m : Method Work LoopErr) (remote exitClosed : Bool)
    (c : Caller Work Nonce Hash LoopErr) : Option (Caller Work Nonce Hash LoopErr) :=
  match c.pc with
  | .start => if remote then some { c with pc := .sending }
      else some { c with pc := .returned m.unsupported }
  | .sending => if exitClosed then some { c with pc := .returned m.stopped } else none
  | .waiting => c.reply.bind fun r =>
      (m.receive r).map fun a => { c with pc := .returned a, reply := none }
  | .returned _ => none

/-- `GetWork`; an error on `errc` comes with the zero array, which is `default` here. -/
def getWork [Inhabited Work] : Method Work LoopErr where
  unsupported := .work (.error .notSupported)
  stopped := .work (.error .stopped)
  receive
    | .res work => some (.work (.ok work))
    | .errc (some err) => some (.work (.error (.loop err)))
    | .errc none => some (.work (.ok default))
    | .done => none

/-- `SubmitWork`: whether the error on `errc` is nil. -/
def submitWork : Method Work LoopErr where
  unsupported := .accepted false
  stopped := .accepted false
  receive
    | .errc err => some (.accepted err.isNone)
    | _ => none

/-- `SubmitHashrate`: `true` once `done` is closed. -/
def submitHashrate : Method Work LoopErr where
  unsupported := .accepted false
  stopped := .accepted false
  receive
    | .done => some (.accepted true)
    | _ => none

def Call.method [Inhabited Work] : Call Nonce Hash → Method Work LoopErr
  | .getWork => Inihash.getWork
  | .submitWork _ _ => Inihash.submitWork
  | .submitHashrate _ _ => Inihash.submitHashrate

/-! ## The loop and the system -/

/-- The sealer's loop as the calls see it: its initial state, the reply it leaves (if any)
and its next state when it serves a request, and how its other inputs move it. -/
structure Loop (σ Input Work Nonce Hash LoopErr : Type) where
  init : σ
  serve : σ → Call Nonce Hash → Option (Reply Work LoopErr) × σ
  update : σ → Input → σ

/-- The states the loop's own moves reach from its initial state. -/
inductive Loop.Reaches (loop : Loop σ Input Work Nonce Hash LoopErr) : σ → Prop
  | init : loop.Reaches loop.init
  | serve {σ₀ : σ} (call : Call Nonce Hash) :
      loop.Reaches σ₀ → loop.Reaches (loop.serve σ₀ call).2
  | update {σ₀ : σ} (i : Input) : loop.Reaches σ₀ → loop.Reaches (loop.update σ₀ i)

structure State (σ Work Nonce Hash LoopErr : Type) where
  callers : List (Caller Work Nonce Hash LoopErr)
  sealer : σ
  exitClosed : Bool

def init (loop : Loop σ Input Work Nonce Hash LoopErr) : State σ Work Nonce Hash LoopErr :=
  ⟨[], loop.init, false⟩

/-- A step of the system: call `j`'s own code, the loop serving call `j`, a new call, an
input to the loop, or the loop's shutdown. -/
inductive Action (Input Nonce Hash : Type) where
  | caller (j : Nat)
  | serve (j : Nat)
  | arrive (call : Call Nonce Hash)
  | input (i : Input)
  | exit

section Runs

variable [Inhabited Work] (loop : Loop σ Input Work Nonce Hash LoopErr) (remote : Bool)

def step (s : State σ Work Nonce Hash LoopErr) :
    Action Input Nonce Hash → Option (State σ Work Nonce Hash LoopErr)
  | .caller j =>
    match s.callers[j]? with
    | some c => (c.call.method.step remote s.exitClosed c).map
        fun c' => { s with callers := s.callers.set j c' }
    | none => none
  | .serve j =>
    match s.callers[j]? with
    | some c =>
      match c.pc, s.exitClosed with
      | .sending, false =>
        some { s with
          callers := s.callers.set j
            { c with pc := .waiting, reply := (loop.serve s.sealer c.call).1 },
          sealer := (loop.serve s.sealer c.call).2 }
      | _, _ => none
    | none => none
  | .arrive call => some { s with callers := s.callers ++ [⟨call, .start, none⟩] }
  | .input i => if s.exitClosed then none else some { s with sealer := loop.update s.sealer i }
  | .exit => if s.exitClosed then none else some { s with exitClosed := true }

@[simp] def exec : State σ Work Nonce Hash LoopErr → List (Action Input Nonce Hash) →
    Option (State σ Work Nonce Hash LoopErr)
  | s, [] => some s
  | s, a :: as => (step loop remote s a).bind (exec · as)

inductive Reachable : State σ Work Nonce Hash LoopErr → Prop
  | init : Reachable (init loop)
  | step {s s' : State σ Work Nonce Hash LoopErr} {a : Action Input Nonce Hash} :
      Reachable s → step loop remote s a = some s' → Reachable s'

end Runs

section Lists

variable {α : Type} {l : List α} {j : Nat} {x y : α}

theorem forall_mem_set {P : α → Prop} (hl : ∀ y ∈ l, P y) (hx : P x) :
    ∀ y ∈ l.set j x, P y := fun y hy =>
  (List.mem_or_eq_of_mem_set hy).elim (hl y) (· ▸ hx)

theorem getElem?_set_of_getElem? (h : l[j]? = some x) : (l.set j y)[j]? = some y := by
  rw [List.getElem?_set_self', h]; rfl

theorem getElem?_append_of_getElem? (h : l[j]? = some x) : (l ++ [y])[j]? = some x := by
  rw [List.getElem?_append_left (List.getElem?_eq_some_iff.mp h).1, h]

theorem set_of_getElem? (h : l[j]? = some x) : l.set j x = l :=
  List.ext_getElem? fun i => by
    by_cases hij : j = i
    · subst hij
      rw [getElem?_set_of_getElem? h, h]
    · rw [List.getElem?_set_ne hij]

end Lists

/-! ## What one step can do -/

section Steps

variable {loop : Loop σ Input Work Nonce Hash LoopErr} {remote : Bool}
variable {s s' : State σ Work Nonce Hash LoopErr}

theorem Method.step_cases {m : Method Work LoopErr} {exitClosed : Bool}
    {c c' : Caller Work Nonce Hash LoopErr} (h : m.step remote exitClosed c = some c') :
    (c.pc = .start ∧ remote = true ∧ c' = { c with pc := .sending }) ∨
    (c.pc = .start ∧ remote = false ∧ c' = { c with pc := .returned m.unsupported }) ∨
    (c.pc = .sending ∧ exitClosed = true ∧ c' = { c with pc := .returned m.stopped }) ∨
    (c.pc = .waiting ∧ ∃ r a, c.reply = some r ∧ m.receive r = some a ∧
      c' = { c with pc := .returned a, reply := none }) := by
  unfold Method.step at h
  split at h <;> rename_i hpc
  · split at h <;> rename_i hr
    · exact .inl ⟨hpc, hr, (Option.some.inj h).symm⟩
    · exact .inr (.inl ⟨hpc, by simpa using hr, (Option.some.inj h).symm⟩)
  · split at h <;> rename_i he
    · exact .inr (.inr (.inl ⟨hpc, he, (Option.some.inj h).symm⟩))
    · cases h
  · obtain ⟨r, hr, h⟩ := Option.bind_eq_some.mp h
    obtain ⟨a, ha, rfl⟩ := Option.map_eq_some'.mp h
    exact .inr (.inr (.inr ⟨hpc, r, a, hr, ha, rfl⟩))
  · cases h

variable [Inhabited Work]

theorem step_cases {a : Action Input Nonce Hash} (h : step loop remote s a = some s') :
    (∃ j c c', a = .caller j ∧ s.callers[j]? = some c ∧
      c.call.method.step remote s.exitClosed c = some c' ∧
      s' = { s with callers := s.callers.set j c' }) ∨
    (∃ j c, a = .serve j ∧ s.callers[j]? = some c ∧ c.pc = .sending ∧
      s.exitClosed = false ∧
      s' = { s with
        callers := s.callers.set j
          { c with pc := .waiting, reply := (loop.serve s.sealer c.call).1 },
        sealer := (loop.serve s.sealer c.call).2 }) ∨
    (∃ call, a = .arrive call ∧
      s' = { s with callers := s.callers ++ [⟨call, .start, none⟩] }) ∨
    (∃ i, a = .input i ∧ s.exitClosed = false ∧
      s' = { s with sealer := loop.update s.sealer i }) ∨
    (a = .exit ∧ s.exitClosed = false ∧ s' = { s with exitClosed := true }) := by
  cases a with
  | caller j =>
    simp only [step] at h
    split at h
    · obtain ⟨c', hc', rfl⟩ := Option.map_eq_some'.mp h
      exact .inl ⟨j, _, c', rfl, ‹_›, hc', rfl⟩
    · cases h
  | serve j =>
    simp only [step] at h
    split at h
    · split at h
      · exact .inr (.inl ⟨j, _, rfl, ‹_›, ‹_›, ‹_›, (Option.some.inj h).symm⟩)
      · cases h
    · cases h
  | arrive call => exact .inr (.inr (.inl ⟨call, rfl, (Option.some.inj h).symm⟩))
  | input i =>
    simp only [step] at h
    split at h <;> rename_i he
    · cases h
    · exact .inr (.inr (.inr (.inl ⟨i, rfl, by simpa using he, (Option.some.inj h).symm⟩)))
  | exit =>
    simp only [step] at h
    split at h <;> rename_i he
    · cases h
    · exact .inr (.inr (.inr (.inr ⟨rfl, by simpa using he, (Option.some.inj h).symm⟩)))

theorem exec_cons {a : Action Input Nonce Hash} {as : List (Action Input Nonce Hash)}
    {s₁ : State σ Work Nonce Hash LoopErr} (h : step loop remote s a = some s₁) :
    exec loop remote s (a :: as) = exec loop remote s₁ as := by
  simp [h]

theorem exec_cons_none {a : Action Input Nonce Hash} {as : List (Action Input Nonce Hash)}
    (h : step loop remote s a = none) : exec loop remote s (a :: as) = none := by
  simp [h]

@[simp] theorem exec_append (s : State σ Work Nonce Hash LoopErr)
    (ts₁ ts₂ : List (Action Input Nonce Hash)) :
    exec loop remote s (ts₁ ++ ts₂) = (exec loop remote s ts₁).bind (exec loop remote · ts₂) := by
  induction ts₁ generalizing s with
  | nil => rfl
  | cons a ts₁ ih => cases h : step loop remote s a <;> simp [h, ih]

/-- What every step of a run keeps holds after the run. -/
theorem exec_preserves {P : State σ Work Nonce Hash LoopErr → Prop}
    {ts : List (Action Input Nonce Hash)}
    (hstep : ∀ {s s' : State σ Work Nonce Hash LoopErr} {a : Action Input Nonce Hash},
      a ∈ ts → P s → step loop remote s a = some s' → P s')
    (hs : P s) (h : exec loop remote s ts = some s') : P s' := by
  induction ts generalizing s with
  | nil => cases h; exact hs
  | cons a ts ih =>
    obtain ⟨s₁, h₁, h⟩ := Option.bind_eq_some.mp h
    exact ih (fun ha => hstep (List.mem_cons_of_mem a ha)) (hstep (List.mem_cons_self a ts) hs h₁) h

theorem Reachable.of_exec (hs : Reachable loop remote s) (ts : List (Action Input Nonce Hash))
    (h : exec loop remote s ts = some s') : Reachable loop remote s' :=
  exec_preserves (fun _ hs h => hs.step h) hs h

/-- What one step does to call `j`: nothing, its own step, or the loop's serving it. -/
theorem getElem?_step {a : Action Input Nonce Hash} {j : Nat}
    {c : Caller Work Nonce Hash LoopErr} (hc : s.callers[j]? = some c)
    (h : step loop remote s a = some s') :
    s'.callers[j]? = some c ∨
    (∃ c', c.call.method.step remote s.exitClosed c = some c' ∧ s'.callers[j]? = some c') ∨
    (a = .serve j ∧ c.pc = .sending ∧ s.exitClosed = false) := by
  rcases step_cases h with ⟨i, ci, c', -, hci, hstep, rfl⟩ | ⟨i, ci, rfl, hci, hpc, he, rfl⟩ |
    ⟨-, -, rfl⟩ | ⟨-, -, -, rfl⟩ | ⟨-, -, rfl⟩
  · by_cases hij : i = j
    · subst hij
      obtain rfl := Option.some.inj (hci.symm.trans hc)
      exact .inr (.inl ⟨c', hstep, getElem?_set_of_getElem? hc⟩)
    · exact .inl (by rw [List.getElem?_set_ne hij, hc])
  · by_cases hij : i = j
    · subst hij
      obtain rfl := Option.some.inj (hci.symm.trans hc)
      exact .inr (.inr ⟨rfl, hpc, he⟩)
    · exact .inl (by rw [List.getElem?_set_ne hij, hc])
  · exact .inl (getElem?_append_of_getElem? hc)
  · exact .inl hc
  · exact .inl hc

/-- A call that a step adds has not begun. -/
theorem start_of_step_none {a : Action Input Nonce Hash} {j : Nat}
    {c : Caller Work Nonce Hash LoopErr} (hj : s.callers[j]? = none)
    (h : step loop remote s a = some s') (hc : s'.callers[j]? = some c) : c.pc = .start := by
  have hne : ∀ {i} {ci : Caller Work Nonce Hash LoopErr}, s.callers[i]? = some ci → i ≠ j :=
    fun hci hij => by rw [hij, hj] at hci; cases hci
  rcases step_cases h with ⟨i, ci, c', -, hci, -, rfl⟩ | ⟨i, ci, -, hci, -, -, rfl⟩ |
    ⟨call, -, rfl⟩ | ⟨_, -, -, rfl⟩ | ⟨-, -, rfl⟩
  · rw [List.getElem?_set_ne (hne hci), hj] at hc; cases hc
  · rw [List.getElem?_set_ne (hne hci), hj] at hc; cases hc
  · rw [List.getElem?_append_right (List.getElem?_eq_none_iff.mp hj)] at hc
    cases hk : j - s.callers.length <;> simp [hk] at hc
    exact hc ▸ rfl
  · rw [hj] at hc; cases hc
  · rw [hj] at hc; cases hc

/-- `exitCh` stays closed. -/
theorem exitClosed_step {a : Action Input Nonce Hash} (he : s.exitClosed = true)
    (h : step loop remote s a = some s') : s'.exitClosed = true := by
  rcases step_cases h with ⟨_, _, _, -, -, -, rfl⟩ | ⟨_, _, -, -, -, -, rfl⟩ |
    ⟨_, -, rfl⟩ | ⟨_, -, -, rfl⟩ | ⟨-, -, rfl⟩
  all_goals first | exact he | rfl

end Steps

/-! ## The loop's state and the replies calls wait for -/

section Provenance

variable {loop : Loop σ Input Work Nonce Hash LoopErr} {remote : Bool}
variable {s s' : State σ Work Nonce Hash LoopErr}

/-- A waiting call holds a reply the loop gives its request from a state of its own run. -/
def WaitingFrom (loop : Loop σ Input Work Nonce Hash LoopErr)
    (c : Caller Work Nonce Hash LoopErr) : Prop :=
  c.pc = .waiting → ∃ σ₀, loop.Reaches σ₀ ∧ c.reply = (loop.serve σ₀ c.call).1

structure Inv (loop : Loop σ Input Work Nonce Hash LoopErr)
    (s : State σ Work Nonce Hash LoopErr) : Prop where
  sealer : loop.Reaches s.sealer
  callers : ∀ c ∈ s.callers, WaitingFrom loop c

theorem inv_init : Inv loop (init loop) :=
  ⟨.init, fun _ h => absurd h (List.not_mem_nil _)⟩

variable [Inhabited Work]

/-- A call's own step never leaves it waiting. -/
theorem WaitingFrom.step {exitClosed : Bool} {c c' : Caller Work Nonce Hash LoopErr}
    (h : c.call.method.step remote exitClosed c = some c') : WaitingFrom loop c' := by
  rcases Method.step_cases h with ⟨-, -, rfl⟩ | ⟨-, -, rfl⟩ | ⟨-, -, rfl⟩ |
    ⟨-, -, -, -, -, rfl⟩ <;> exact fun h => by cases h

theorem inv_step {a : Action Input Nonce Hash} (inv : Inv loop s)
    (h : step loop remote s a = some s') : Inv loop s' := by
  rcases step_cases h with ⟨j, c, c', -, -, hstep, rfl⟩ | ⟨j, c, -, -, -, -, rfl⟩ |
    ⟨call, -, rfl⟩ | ⟨i, -, -, rfl⟩ | ⟨-, -, rfl⟩
  · -- a call's own step
    exact ⟨inv.sealer, forall_mem_set inv.callers (WaitingFrom.step hstep)⟩
  · -- the loop serves call `j`
    exact ⟨inv.sealer.serve c.call,
      forall_mem_set inv.callers fun _ => ⟨s.sealer, inv.sealer, rfl⟩⟩
  · -- a new call
    refine ⟨inv.sealer, fun c hc => ?_⟩
    rcases List.mem_append.mp hc with hc | hc
    · exact inv.callers c hc
    · rw [List.mem_singleton.mp hc]; exact fun h => by cases h
  · exact ⟨inv.sealer.update i, inv.callers⟩
  · exact ⟨inv.sealer, inv.callers⟩

theorem Reachable.inv (h : Reachable loop remote s) : Inv loop s := by
  induction h with
  | init => exact inv_init
  | step _ hs ih => exact inv_step ih hs

end Provenance

/-- A loop holding the last package: it hands it out (error 0 without one), accepts a nonce
below it for that package and then drops it (error 1 otherwise), and acknowledges rates. -/
def exampleLoop : Loop (Option Nat) Nat Nat Nat Nat Nat where
  init := none
  serve
    | some work, .getWork => (some (.res work), some work)
    | none, .getWork => (some (.errc (some 0)), none)
    | some work, .submitWork nonce hash =>
      if work = hash ∧ nonce < work then (some (.errc none), none)
      else (some (.errc (some 1)), some work)
    | none, .submitWork _ _ => (some (.errc (some 1)), none)
    | current, .submitHashrate _ _ => (some .done, current)
  update _ work := some work

/-- The engine hands over package 7; a miner fetches it, submits nonce 3 for it, and
submits a hash rate of 5 under id 9. -/
def minerRun : List (Action Nat Nat Nat) :=
  [.input 7, .arrive .getWork, .caller 0, .serve 0, .caller 0,
   .arrive (.submitWork 3 7), .caller 1, .serve 1, .caller 1,
   .arrive (.submitHashrate 5 9), .caller 2, .serve 2, .caller 2]

/-- The engine hands over packages 7 and then 8, and a miner submits nonce 3 for 7. -/
def staleRun : List (Action Nat Nat Nat) :=
  [.input 7, .input 8, .arrive (.submitWork 3 7), .caller 0, .serve 0, .caller 0]

/-! ## The loop sees one request at a time -/

/-- What the loop is asked to do: serve a request, or take one of its other inputs. -/
inductive Move (Input Nonce Hash : Type) where
  | serve (call : Call Nonce Hash)
  | update (i : Input)

/-- The loop on its own, taking its moves one after another. -/
@[simp] def Loop.run (loop : Loop σ Input Work Nonce Hash LoopErr) :
    σ → List (Move Input Nonce Hash) → σ
  | σ₀, [] => σ₀
  | σ₀, .serve call :: ms => loop.run (loop.serve σ₀ call).2 ms
  | σ₀, .update i :: ms => loop.run (loop.update σ₀ i) ms

/-- The loop's moves in a run of the system, given the calls made before it: the request of
each call the loop serves, and each of its inputs, in order. -/
@[simp] def moves (calls : List (Call Nonce Hash)) :
    List (Action Input Nonce Hash) → List (Move Input Nonce Hash)
  | [] => []
  | .arrive call :: ts => moves (calls ++ [call]) ts
  | .serve j :: ts =>
    match calls[j]? with
    | some call => .serve call :: moves calls ts
    | none => moves calls ts
  | .input i :: ts => .update i :: moves calls ts
  | .caller _ :: ts => moves calls ts
  | .exit :: ts => moves calls ts

section Sequential

variable {loop : Loop σ Input Work Nonce Hash LoopErr} {remote : Bool}

theorem Method.step_call {m : Method Work LoopErr} {exitClosed : Bool}
    {c c' : Caller Work Nonce Hash LoopErr} (h : m.step remote exitClosed c = some c') :
    c'.call = c.call := by
  rcases Method.step_cases h with ⟨-, -, rfl⟩ | ⟨-, -, rfl⟩ | ⟨-, -, rfl⟩ |
    ⟨-, -, -, -, -, rfl⟩ <;> rfl

theorem map_call_set {l : List (Caller Work Nonce Hash LoopErr)} {j : Nat}
    {c c' : Caller Work Nonce Hash LoopErr} (hc : l[j]? = some c) (h : c'.call = c.call) :
    (l.set j c').map (·.call) = l.map (·.call) := by
  rw [List.map_set, h]
  exact set_of_getElem? (by rw [List.getElem?_map, hc]; rfl)

variable [Inhabited Work]

theorem sealer_exec {s s' : State σ Work Nonce Hash LoopErr}
    {ts : List (Action Input Nonce Hash)} (h : exec loop remote s ts = some s') :
    s'.sealer = loop.run s.sealer (moves (s.callers.map (·.call)) ts) := by
  induction ts generalizing s with
  | nil => cases h; rfl
  | cons a ts ih =>
    obtain ⟨s₁, h₁, h⟩ := Option.bind_eq_some.mp h
    rw [ih h]
    rcases step_cases h₁ with ⟨j, c, c', rfl, hc, hstep, rfl⟩ | ⟨j, c, rfl, hc, -, -, rfl⟩ |
      ⟨call, rfl, rfl⟩ | ⟨i, rfl, -, rfl⟩ | ⟨rfl, -, rfl⟩
    · simp [map_call_set hc (Method.step_call hstep)]
    · have hj : (s.callers.map (·.call))[j]? = some c.call := by simp [hc]
      have hcalls : (s.callers.set j
          { c with pc := .waiting, reply := (loop.serve s.sealer c.call).1 }).map (·.call) =
          s.callers.map (·.call) :=
        map_call_set hc rfl
      simp only [moves, hj, Loop.run, hcalls]
    all_goals simp

/-- The loop sees its requests one at a time: after any run from any state, its state is
its own sequential run over the requests it served and its inputs, in order. -/
theorem sealer_eq_run (loop : Loop σ Input Work Nonce Hash LoopErr) (remote : Bool)
    (s s' : State σ Work Nonce Hash LoopErr) (ts : List (Action Input Nonce Hash))
    (h : exec loop remote s ts = some s') :
    s'.sealer = loop.run s.sealer (moves (s.callers.map (·.call)) ts) :=
  sealer_exec h

theorem sealer_eq_run_minerRun :
    ∃ s, exec exampleLoop true (init exampleLoop) minerRun = some s ∧
      s.sealer = exampleLoop.run (init exampleLoop).sealer
        (moves ((init exampleLoop).callers.map (·.call)) minerRun) :=
  have h : exec exampleLoop true (init exampleLoop) minerRun = some _ := rfl
  ⟨_, h, sealer_eq_run _ _ _ _ _ h⟩

end Sequential

/-! ## Each call takes effect when the loop serves it -/

section Linearization

variable [Inhabited Work] {loop : Loop σ Input Work Nonce Hash LoopErr} {remote : Bool}
variable {s s' : State σ Work Nonce Hash LoopErr} {j : Nat} {call : Call Nonce Hash} {σ₀ : σ}

/-- The loop served call `j`, making `call`, from state `σ₀`: the call waits for the reply
the loop gave there, or has returned its reading of it. -/
def Served (loop : Loop σ Input Work Nonce Hash LoopErr) (j : Nat) (call : Call Nonce Hash)
    (σ₀ : σ) (s : State σ Work Nonce Hash LoopErr) : Prop :=
  ∃ c, s.callers[j]? = some c ∧ c.call = call ∧
    ((c.pc = .waiting ∧ c.reply = (loop.serve σ₀ call).1) ∨
      ∃ r a, (loop.serve σ₀ call).1 = some r ∧ call.method.receive r = some a ∧
        c.pc = .returned a)

theorem served_of_serve (h : step loop remote s (.serve j) = some s') :
    ∃ c, s.callers[j]? = some c ∧ Served loop j c.call s.sealer s' := by
  rcases step_cases h with ⟨_, _, _, ha, -⟩ | ⟨_, c, ha, hc, -, -, rfl⟩ | ⟨_, ha, -⟩ |
    ⟨_, ha, -⟩ | ⟨ha, -⟩ <;> cases ha
  exact ⟨c, hc, _, getElem?_set_of_getElem? hc, rfl, .inl ⟨rfl, rfl⟩⟩

/-- No step takes a served call's reply away or gives it another one. -/
theorem Served.step {b : Action Input Nonce Hash} (hs : Served loop j call σ₀ s)
    (h : step loop remote s b = some s') : Served loop j call σ₀ s' := by
  obtain ⟨c, hc, hcall, hpc⟩ := hs
  rcases getElem?_step hc h with h' | ⟨c', hstep, h'⟩ | ⟨-, hsend, -⟩
  · exact ⟨c, h', hcall, hpc⟩
  · refine ⟨c', h', (Method.step_call hstep).trans hcall, ?_⟩
    rcases hpc with ⟨hw, hR⟩ | ⟨_, _, -, -, hret⟩
    · rcases Method.step_cases hstep with ⟨h, -⟩ | ⟨h, -⟩ | ⟨h, -⟩ | ⟨-, r, a, hr, ha, rfl⟩
      iterate 3 cases hw.symm.trans h
      exact .inr ⟨r, a, hR.symm.trans hr, hcall ▸ ha, rfl⟩
    · -- a call that has returned takes no step
      simp [Method.step, hret] at hstep
  · rcases hpc with ⟨h, -⟩ | ⟨_, _, -, -, h⟩ <;> cases hsend.symm.trans h

theorem Served.exec {ts : List (Action Input Nonce Hash)} (hs : Served loop j call σ₀ s)
    (h : exec loop remote s ts = some s') : Served loop j call σ₀ s' :=
  exec_preserves (fun _ hs h => hs.step h) hs h

/-- Call `j`, if made, has not reached the loop: it has not begun, is in its first `select`,
or has answered without it. -/
def Unreached (remote : Bool) (j : Nat) (s : State σ Work Nonce Hash LoopErr) : Prop :=
  ∀ c, s.callers[j]? = some c → c.pc = .start ∨ c.pc = .sending ∨
    (remote = false ∧ c.pc = .returned c.call.method.unsupported) ∨
    (s.exitClosed = true ∧ c.pc = .returned c.call.method.stopped)

theorem Unreached.step {b : Action Input Nonce Hash} (hu : Unreached remote j s)
    (hb : b ≠ .serve j) (h : step loop remote s b = some s') : Unreached remote j s' := by
  intro c' hc'
  cases hc : s.callers[j]? with
  | none => exact .inl (start_of_step_none hc h hc')
  | some c =>
    rcases getElem?_step hc h with h' | ⟨c'', hstep, h'⟩ | ⟨hb', -⟩
    · obtain rfl := Option.some.inj (h'.symm.trans hc')
      exact (hu c hc).imp_right (.imp_right (.imp_right (.imp_left (exitClosed_step · h))))
    · obtain rfl := Option.some.inj (h'.symm.trans hc')
      rcases Method.step_cases hstep with ⟨-, -, rfl⟩ | ⟨-, hr, rfl⟩ | ⟨-, he, rfl⟩ |
        ⟨hw, -⟩
      · exact .inr (.inl rfl)
      · exact .inr (.inr (.inl ⟨hr, rfl⟩))
      · exact .inr (.inr (.inr ⟨exitClosed_step he h, rfl⟩))
      · rcases hu c hc with h | h | ⟨-, h⟩ | ⟨-, h⟩ <;> cases hw.symm.trans h
    · exact absurd hb' hb

theorem Unreached.exec {ts : List (Action Input Nonce Hash)} (hu : Unreached remote j s)
    (hts : .serve j ∉ ts) (h : exec loop remote s ts = some s') : Unreached remote j s' :=
  exec_preserves (fun hb hu h => hu.step (fun e => hts (e ▸ hb)) h) hu h

/-- A served call answers with its reading of the reply the loop gave from its state at the
serve step, which is the loop's sequential run over the moves before it. -/
theorem answer_of_served {ts₁ ts₂ : List (Action Input Nonce Hash)}
    {c : Caller Work Nonce Hash LoopErr} {a : Answer Work LoopErr}
    (h : exec loop remote s (ts₁ ++ .serve j :: ts₂) = some s')
    (hc : s'.callers[j]? = some c) (ha : c.pc = .returned a) :
    ∃ r, (loop.serve (loop.run s.sealer (moves (s.callers.map (·.call)) ts₁)) c.call).1 =
      some r ∧ c.call.method.receive r = some a := by
  rw [exec_append] at h
  obtain ⟨s₁, h₁, h⟩ := Option.bind_eq_some.mp h
  obtain ⟨s₂, h₂, h₃⟩ := Option.bind_eq_some.mp h
  obtain ⟨c₀, -, hs⟩ := served_of_serve h₂
  obtain ⟨c', hc', hcall, hpc⟩ := hs.exec h₃
  obtain rfl := Option.some.inj (hc'.symm.trans hc)
  rw [← sealer_exec h₁, hcall]
  rcases hpc with ⟨hw, -⟩ | ⟨r, a', hr, hra, hret⟩
  · cases hw.symm.trans ha
  · cases hret.symm.trans ha
    exact ⟨r, hr, hra⟩

/-- An unserved call answers as without a sealer or after shutdown; a served one reads the
reply the loop gave at its serve step, from its sequential run over the moves before. -/
theorem answer_linearizable (loop : Loop σ Input Work Nonce Hash LoopErr) (remote : Bool)
    (ts : List (Action Input Nonce Hash)) (s : State σ Work Nonce Hash LoopErr)
    (h : exec loop remote (init loop) ts = some s) (j : Nat) (c : Caller Work Nonce Hash LoopErr)
    (a : Answer Work LoopErr) (hc : s.callers[j]? = some c) (ha : c.pc = .returned a) :
    (.serve j ∉ ts ∧ ((remote = false ∧ a = c.call.method.unsupported) ∨
      (s.exitClosed = true ∧ a = c.call.method.stopped))) ∨
    ∃ ts₁ ts₂, ts = ts₁ ++ .serve j :: ts₂ ∧
      ∃ r, (loop.serve (loop.run loop.init (moves [] ts₁)) c.call).1 = some r ∧
        c.call.method.receive r = some a := by
  by_cases hj : .serve j ∈ ts
  · obtain ⟨ts₁, ts₂, rfl⟩ := List.append_of_mem hj
    exact .inr ⟨ts₁, ts₂, rfl, answer_of_served h hc ha⟩
  · have hu : Unreached remote j (init loop) := fun _ h => by cases h
    refine .inl ⟨hj, ?_⟩
    rcases hu.exec hj h c hc with h | h | ⟨hr, h⟩ | ⟨he, h⟩ <;> rw [ha] at h <;> cases h
    · exact .inl ⟨hr, rfl⟩
    · exact .inr ⟨he, rfl⟩

/-- A stale solution is rejected: the loop holds package 8 when it serves the request. -/
theorem answer_linearizable_stale :
    ∃ s, exec exampleLoop true (init exampleLoop) staleRun = some s ∧
      s.callers[0]? = some ⟨.submitWork 3 7, .returned (.accepted false), none⟩ ∧
      ((Action.serve 0 ∉ staleRun ∧
        ((true = false ∧ (Answer.accepted false : Answer Nat Nat) =
            (Call.submitWork 3 7 : Call Nat Nat).method.unsupported) ∨
          (s.exitClosed = true ∧ (Answer.accepted false : Answer Nat Nat) =
            (Call.submitWork 3 7 : Call Nat Nat).method.stopped))) ∨
      ∃ ts₁ ts₂, staleRun = ts₁ ++ .serve 0 :: ts₂ ∧
        ∃ r, (exampleLoop.serve (exampleLoop.run exampleLoop.init (moves [] ts₁))
            (.submitWork 3 7)).1 = some r ∧
          (Call.submitWork 3 7 : Call Nat Nat).method.receive r =
            some (Answer.accepted false : Answer Nat Nat)) :=
  have h : exec exampleLoop true (init exampleLoop) staleRun = some _ := rfl
  ⟨_, h, rfl, answer_linearizable _ _ _ _ h 0 _ _ rfl rfl⟩

end Linearization

/-! ## No call hangs on a loop that replies -/

section Liveness

variable [Inhabited Work] {loop : Loop σ Input Work Nonce Hash LoopErr} {remote : Bool}
variable {s : State σ Work Nonce Hash LoopErr} {j : Nat} {c c' : Caller Work Nonce Hash LoopErr}

/-- The loop answers every request, from every state of its run, on a channel its call
reads. -/
def Replies (loop : Loop σ Input Work Nonce Hash LoopErr) : Prop :=
  ∀ σ₀ call, loop.Reaches σ₀ →
    ∃ r a, (loop.serve σ₀ call).1 = some r ∧ call.method.receive r = some a

theorem step_caller (hc : s.callers[j]? = some c)
    (h : c.call.method.step remote s.exitClosed c = some c') :
    step loop remote s (.caller j) = some { s with callers := s.callers.set j c' } := by
  simp [step, hc, h]

theorem step_serve (hc : s.callers[j]? = some c) (hpc : c.pc = .sending)
    (he : s.exitClosed = false) :
    step loop remote s (.serve j) = some { s with
      callers := s.callers.set j
        { c with pc := .waiting, reply := (loop.serve s.sealer c.call).1 },
      sealer := (loop.serve s.sealer c.call).2 } := by
  simp [step, hc, hpc, he]

/-- Call `j` returns within `n` steps, each its own or the loop's serving it. -/
def ReturnsWithin (loop : Loop σ Input Work Nonce Hash LoopErr) (remote : Bool) (j n : Nat)
    (s : State σ Work Nonce Hash LoopErr) : Prop :=
  ∃ ts s' a, ts.length ≤ n ∧ (∀ t ∈ ts, t = .caller j ∨ t = .serve j) ∧
    exec loop remote s ts = some s' ∧ s'.callers[j]?.map (·.pc) = some (.returned a)

theorem ReturnsWithin.of_returned {n : Nat} {a : Answer Work LoopErr}
    (hc : s.callers[j]? = some c) (hpc : c.pc = .returned a) :
    ReturnsWithin loop remote j n s :=
  ⟨[], s, a, Nat.zero_le _, by simp, rfl, by simp [hc, hpc]⟩

theorem ReturnsWithin.cons {n : Nat} {a : Action Input Nonce Hash}
    {s₁ : State σ Work Nonce Hash LoopErr} (h : step loop remote s a = some s₁)
    (ha : a = .caller j ∨ a = .serve j)
    (hr : ReturnsWithin loop remote j n s₁) : ReturnsWithin loop remote j (n + 1) s :=
  let ⟨ts, s', b, hlen, hts, hexec, hret⟩ := hr
  ⟨a :: ts, s', b, by simp [hlen], List.forall_mem_cons.mpr ⟨ha, hts⟩,
    by rw [exec_cons h]; exact hexec, hret⟩

theorem ReturnsWithin.mono {n m : Nat} (hnm : n ≤ m) (hr : ReturnsWithin loop remote j n s) :
    ReturnsWithin loop remote j m s :=
  let ⟨ts, s', a, hlen, h⟩ := hr
  ⟨ts, s', a, hlen.trans hnm, h⟩

/-- A call whose own next step returns it. -/
theorem returns_of_step {n : Nat} {a : Answer Work LoopErr} (hc : s.callers[j]? = some c)
    (h : c.call.method.step remote s.exitClosed c = some c') (hpc : c'.pc = .returned a) :
    ReturnsWithin loop remote j (n + 1) s :=
  .cons (step_caller hc h) (.inl rfl) (.of_returned (getElem?_set_of_getElem? hc) hpc)

/-- A call in the first `select` returns within two steps: its own once `exitCh` is closed,
else the loop's serving it and its own. -/
theorem returns_of_sending (hreply : Replies loop) (hσ : loop.Reaches s.sealer)
    (hc : s.callers[j]? = some c) (hpc : c.pc = .sending) :
    ReturnsWithin loop remote j 2 s := by
  cases he : s.exitClosed with
  | true =>
    have hstep : c.call.method.step remote s.exitClosed c =
        some { c with pc := .returned c.call.method.stopped } := by
      simp [Method.step, hpc, he]
    exact returns_of_step hc hstep rfl
  | false =>
    obtain ⟨r, a, hr, ha⟩ := hreply s.sealer c.call hσ
    have hstep : ({ c with pc := .waiting, reply := (loop.serve s.sealer c.call).1 } :
        Caller Work Nonce Hash LoopErr).call.method.step remote s.exitClosed
        { c with pc := .waiting, reply := (loop.serve s.sealer c.call).1 } =
        some { c with pc := .returned a, reply := none } := by
      simp [Method.step, hr, ha]
    exact .cons (step_serve hc hpc he) (.inr rfl)
      (returns_of_step (getElem?_set_of_getElem? hc) hstep rfl)

/-- No call hangs on a loop that answers every request on a channel its call reads: each
returns within three steps, its own or the loop's serving it. -/
theorem call_returns (loop : Loop σ Input Work Nonce Hash LoopErr) (remote : Bool)
    (hreply : Replies loop) (s : State σ Work Nonce Hash LoopErr)
    (hs : Reachable loop remote s) (j : Nat) (c : Caller Work Nonce Hash LoopErr)
    (hc : s.callers[j]? = some c) :
    ∃ ts s' a, ts.length ≤ 3 ∧ (∀ t ∈ ts, t = .caller j ∨ t = .serve j) ∧
      exec loop remote s ts = some s' ∧ s'.callers[j]?.map (·.pc) = some (.returned a) := by
  have inv := hs.inv
  show ReturnsWithin loop remote j 3 s
  cases hpc : c.pc with
  | start =>
    cases remote with
    | false =>
      have hstep : c.call.method.step false s.exitClosed c =
          some { c with pc := .returned c.call.method.unsupported } := by
        simp [Method.step, hpc]
      exact returns_of_step hc hstep rfl
    | true =>
      have hstep : c.call.method.step true s.exitClosed c = some { c with pc := .sending } := by
        simp [Method.step, hpc]
      exact .cons (step_caller hc hstep) (.inl rfl)
        (returns_of_sending hreply inv.sealer (getElem?_set_of_getElem? hc) rfl)
  | sending => exact (returns_of_sending hreply inv.sealer hc hpc).mono (by omega)
  | waiting =>
    obtain ⟨σ₀, hσ, hrep⟩ := inv.callers c (List.getElem?_mem hc) hpc
    obtain ⟨r, a, hr, ha⟩ := hreply σ₀ c.call hσ
    have hstep : c.call.method.step remote s.exitClosed c =
        some { c with pc := .returned a, reply := none } := by
      simp [Method.step, hpc, hrep, hr, ha]
    exact returns_of_step hc hstep rfl
  | returned a => exact .of_returned hc hpc

theorem exampleLoop_replies : Replies exampleLoop := by
  intro σ₀ call _
  cases σ₀ <;> cases call <;> simp only [exampleLoop] <;> (try split_ifs) <;>
    exact ⟨_, _, rfl, rfl⟩

/-- A `GetWork` call that has not begun, with a package waiting for it. -/
theorem call_returns_pending :
    ∃ s, exec exampleLoop true (init exampleLoop) [.input 7, .arrive .getWork] = some s ∧
      ∃ ts s' a, ts.length ≤ 3 ∧ (∀ t ∈ ts, t = .caller 0 ∨ t = .serve 0) ∧
        exec exampleLoop true s ts = some s' ∧
        s'.callers[0]?.map (·.pc) = some (.returned a) :=
  have h : exec exampleLoop true (init exampleLoop) [.input 7, .arrive .getWork] = some _ := rfl
  ⟨_, h, call_returns _ _ exampleLoop_replies _ (Reachable.init.of_exec _ h) 0 _ rfl⟩

end Liveness

/-! ## Shutdown, served calls, and no remote sealer -/

section Shutdown

variable [Inhabited Work] {loop : Loop σ Input Work Nonce Hash LoopErr} {remote : Bool}
variable {s s' : State σ Work Nonce Hash LoopErr} {j : Nat} {call : Call Nonce Hash}
variable {c : Caller Work Nonce Hash LoopErr}

/-- `exitCh` is closed and call `j`, making `call`, was not served: it has not begun, is in
its first `select`, or has answered stopped. -/
def Unserved (j : Nat) (call : Call Nonce Hash) (s : State σ Work Nonce Hash LoopErr) : Prop :=
  s.exitClosed = true ∧ ∃ c, s.callers[j]? = some c ∧ c.call = call ∧
    (c.pc = .start ∨ c.pc = .sending ∨ c.pc = .returned call.method.stopped)

theorem Unserved.step {a : Action Input Nonce Hash} (hu : Unserved j call s)
    (h : step loop true s a = some s') : Unserved j call s' := by
  obtain ⟨he, c, hc, hcall, hpc⟩ := hu
  refine ⟨exitClosed_step he h, ?_⟩
  rcases getElem?_step hc h with h' | ⟨c', hstep, h'⟩ | ⟨-, -, he'⟩
  · exact ⟨c, h', hcall, hpc⟩
  · refine ⟨c', h', ?_⟩
    rcases Method.step_cases hstep with ⟨-, -, rfl⟩ | ⟨-, hr, -⟩ | ⟨-, -, rfl⟩ | ⟨hw, -⟩
    · exact ⟨hcall, .inr (.inl rfl)⟩
    · cases hr
    · exact ⟨hcall, .inr (.inr (hcall ▸ rfl))⟩
    · rcases hpc with h | h | h <;> rw [h] at hw <;> cases hw
  · rw [he] at he'
    cases he'

theorem Unserved.exec {ts : List (Action Input Nonce Hash)} (hu : Unserved j call s)
    (h : exec loop true s ts = some s') : Unserved j call s' :=
  exec_preserves (fun _ hu h => hu.step h) hu h

/-- Once `exitCh` is closed, a call in its first `select` returns stopped. -/
theorem exec_stopped (he : s.exitClosed = true) (hc : s.callers[j]? = some c)
    (hpc : c.pc = .sending) :
    exec loop true s [.caller j] =
      some { s with
        callers := s.callers.set j { c with pc := .returned c.call.method.stopped } } := by
  simp [exec, step, hc, Method.step, hpc, he]

/-- After shutdown a call the loop has not served answers stopped (`errEthashStopped`, or
false), within two of its own steps and whatever runs next. -/
theorem shutdown_stops_unserved (loop : Loop σ Input Work Nonce Hash LoopErr)
    (s : State σ Work Nonce Hash LoopErr) (j : Nat) (c : Caller Work Nonce Hash LoopErr)
    (he : s.exitClosed = true) (hc : s.callers[j]? = some c)
    (hpc : c.pc = .start ∨ c.pc = .sending) :
    (∃ ts s', ts.length ≤ 2 ∧ (∀ t ∈ ts, t = .caller j) ∧
      exec loop true s ts = some s' ∧
      s'.callers[j]? = some { c with pc := .returned c.call.method.stopped }) ∧
    ∀ ts s' c' a, exec loop true s ts = some s' → s'.callers[j]? = some c' →
      c'.pc = .returned a → a = c.call.method.stopped := by
  refine ⟨?_, fun ts s' c' a h hc' hpc' => ?_⟩
  · rcases hpc with hpc | hpc
    · have hsend : c.call.method.step true s.exitClosed c = some { c with pc := .sending } := by
        simp [Method.step, hpc]
      exact ⟨[.caller j, .caller j], _, by simp, by simp,
        (exec_cons (step_caller hc hsend)).trans
          (exec_stopped he (getElem?_set_of_getElem? hc) rfl),
        getElem?_set_of_getElem? (getElem?_set_of_getElem? hc)⟩
    · exact ⟨[.caller j], _, by simp, by simp, exec_stopped he hc hpc,
        getElem?_set_of_getElem? hc⟩
  · obtain ⟨-, c'', hc'', hcall, hpc''⟩ :=
      (show Unserved j c.call s from ⟨he, c, hc, rfl, hpc.imp_right .inl⟩).exec h
    obtain rfl := Option.some.inj (hc''.symm.trans hc')
    rcases hpc'' with h | h | h <;> rw [hpc'] at h <;> cases h
    rfl

/-- A `GetWork` call that has not begun when the loop shuts down. -/
theorem shutdown_stops_unserved_getWork :
    ∃ s, exec exampleLoop true (init exampleLoop) [.arrive .getWork, .exit] = some s ∧
      (∃ ts s', ts.length ≤ 2 ∧ (∀ t ∈ ts, t = .caller 0) ∧
        exec exampleLoop true s ts = some s' ∧
        s'.callers[0]? = some ⟨.getWork, .returned (.work (.error .stopped)), none⟩) ∧
      ∀ ts s' c' a, exec exampleLoop true s ts = some s' → s'.callers[0]? = some c' →
        c'.pc = .returned a → a = .work (.error .stopped) :=
  have h : exec exampleLoop true (init exampleLoop) [.arrive .getWork, .exit] = some _ := rfl
  ⟨_, h, shutdown_stops_unserved exampleLoop _ 0 ⟨.getWork, .start, none⟩ rfl rfl (.inl rfl)⟩

/-- A served call whose reply it cannot read: no step moves it, and no step changes it. -/
theorem blocked_step {a : Action Input Nonce Hash} (hc : s.callers[j]? = some c)
    (hpc : c.pc = .waiting) (hr : c.reply.bind c.call.method.receive = none)
    (h : step loop remote s a = some s') : s'.callers[j]? = some c := by
  rcases getElem?_step hc h with h' | ⟨c', hstep, -⟩ | ⟨-, hs, -⟩
  · exact h'
  · -- its own step reads the reply
    rcases Method.step_cases hstep with ⟨hw, -⟩ | ⟨hw, -⟩ | ⟨hw, -⟩ | ⟨-, r, a, hr', ha, -⟩
    all_goals first
      | (rw [hpc] at hw; cases hw)
      | simp [hr', ha] at hr
  · rw [hpc] at hs
    cases hs

/-- A served call waits for its reply alone: if the loop left none, or one the call does not
read, the call stays as it is in every run that follows, shutdown included. -/
theorem served_unread_blocks (loop : Loop σ Input Work Nonce Hash LoopErr) (remote : Bool)
    (s : State σ Work Nonce Hash LoopErr) (j : Nat) (c : Caller Work Nonce Hash LoopErr)
    (hc : s.callers[j]? = some c) (hpc : c.pc = .waiting)
    (hr : c.reply.bind c.call.method.receive = none) :
    ∀ ts s', exec loop remote s ts = some s' → s'.callers[j]? = some c :=
  fun _ _ h => exec_preserves (P := fun s => s.callers[j]? = some c)
    (fun _ hc h => blocked_step hc hpc hr h) hc h

/-- A loop that takes every request and answers none. -/
def silentLoop : Loop Unit Unit Nat Nat Nat Nat := ⟨(), fun _ _ => (none, ()), fun _ _ => ()⟩

theorem served_unread_blocks_silent :
    ∃ s, exec silentLoop true (init silentLoop) [.arrive .getWork, .caller 0, .serve 0] =
      some s ∧
      ∀ ts s', exec silentLoop true s ts = some s' →
        s'.callers[0]? = some ⟨.getWork, .waiting, none⟩ :=
  have h : exec silentLoop true (init silentLoop) [.arrive .getWork, .caller 0, .serve 0] =
      some _ := rfl
  ⟨_, h, served_unread_blocks silentLoop true _ 0 ⟨.getWork, .waiting, none⟩ rfl rfl rfl⟩

theorem serve_none_of_served {call : Call Nonce Hash} {σ₀ : σ} (hs : Served loop j call σ₀ s) :
    step loop remote s (.serve j) = none := by
  obtain ⟨c, hc, -, ⟨h, -⟩ | ⟨_, _, -, -, h⟩⟩ := hs <;> simp [step, hc, h]

theorem exec_serve_of_served {call : Call Nonce Hash} {σ₀ : σ} (hs : Served loop j call σ₀ s)
    (ts ts' : List (Action Input Nonce Hash)) :
    exec loop remote s (ts ++ .serve j :: ts') = none := by
  rw [exec_append]
  cases h : exec loop remote s ts with
  | none => rfl
  | some s₁ => exact exec_cons_none (serve_none_of_served (hs.exec h))

/-- No run hands the loop a call's request twice: once served, the call waits for its reply
or has returned, and no step puts it back in its first `select`. -/
theorem serve_at_most_once (loop : Loop σ Input Work Nonce Hash LoopErr) (remote : Bool)
    (s : State σ Work Nonce Hash LoopErr) (j : Nat) (ts₁ ts₂ ts₃ : List (Action Input Nonce Hash)) :
    exec loop remote s (ts₁ ++ .serve j :: (ts₂ ++ .serve j :: ts₃)) = none := by
  rw [exec_append]
  cases h : exec loop remote s ts₁ with
  | none => rfl
  | some s₁ =>
    cases h' : step loop remote s₁ (.serve j) with
    | none => exact exec_cons_none h'
    | some s₂ =>
      obtain ⟨c, -, hs⟩ := served_of_serve h'
      exact (exec_cons h').trans (exec_serve_of_served hs ts₂ ts₃)

end Shutdown

end PureChain.Inihash
