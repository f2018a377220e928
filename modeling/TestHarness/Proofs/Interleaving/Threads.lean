import Mathlib.Logic.Function.Basic
import TestHarness.Proofs.Core.Runs
import TestHarness.Proofs.Interleaving.Run

/-!
# Threads that share a state

Several threads make calls of one shared state at the same time. A call is a sequence of *atoms*, each of
which holds the state's lock; between two atoms of a call any other thread may take its own. An atom that
fails ends its call with the error, and the last atom that succeeds ends it with success.

That the atoms are the right ones is `runAtoms_atoms`: taken without interruption they are the call.
-/

namespace TestHarness

/-! ## Atoms -/

/-- **`Atom`** — what is done under one hold of the lock. -/
inductive Atom where
  | markSpawned
  | ensureSpawned (operation : String)
  | noteSubstitution
  | append (text : String)
  | readStream (stream : Stream)
  | setExitCode (code : Int)
  | finalize (files : FileView)

/-- The state and result of one `Atom`. -/
def Atom.take (c : Core) : Atom → Core.Outcome Unit
  | .markSpawned => c.markSpawned
  | .ensureSpawned operation => (c, c.ensureSpawned operation)
  | .noteSubstitution => (c.noteSubstitution, .ok ())
  | .append text => c.append text
  | .readStream stream => ((c.readStream stream).1, .ok ())
  | .setExitCode code => c.setExitCode code
  | .finalize files => c.finalize files

/-- **The atoms of a call**, in order: `appendBytes` of ill-formed octets has two and `complete` has three,
    any other call has one. -/
def Operation.atoms : Operation → List Atom
  | .markSpawned => [.markSpawned]
  | .ensureSpawned operation => [.ensureSpawned operation]
  | .append text => [.append text]
  | .appendBytes bytes =>
    if Utf8.wellFormed bytes then [.append (Utf8.decodeLossy bytes)]
    else [.noteSubstitution, .append (Utf8.decodeLossy bytes)]
  | .readStream stream => [.readStream stream]
  | .setExitCode code => [.setExitCode code]
  | .finalize files => [.finalize files]
  | .complete files code => [.ensureSpawned "complete", .setExitCode code, .finalize files]

/-- Atoms taken one after the other by `Atom.take`, up to the first that fails. -/
def runAtoms (c : Core) : List Atom → Core.Outcome Unit
  | [] => (c, .ok ())
  | atom :: rest =>
    match atom.take c with
    | (c, .error e) => (c, .error e)
    | (c, .ok ()) => runAtoms c rest

theorem runAtoms_single (c : Core) (atom : Atom) : runAtoms c [atom] = atom.take c := by
  rw [runAtoms]
  obtain ⟨c', result⟩ := atom.take c
  cases result with
  | error e => rfl
  | ok u => rfl

/-- **A call is its atoms**, if no other thread comes between them:
    `runAtoms c operation.atoms = c.perform operation`. -/
theorem runAtoms_atoms (c : Core) (operation : Operation) :
    runAtoms c operation.atoms = c.perform operation := by
  cases operation with
  | markSpawned => exact runAtoms_single c _
  | ensureSpawned operation => exact runAtoms_single c _
  | append text => exact runAtoms_single c _
  | appendBytes bytes =>
      rw [Operation.atoms, Core.perform, Core.appendBytes_eq, Core.decoding]
      by_cases hwf : Utf8.wellFormed bytes = true
      · rw [if_pos hwf, if_pos hwf]; exact runAtoms_single c _
      · rw [if_neg hwf, if_neg hwf]; exact runAtoms_single c.noteSubstitution _
  | readStream stream => exact runAtoms_single c _
  | setExitCode code => exact runAtoms_single c _
  | finalize files => exact runAtoms_single c _
  | complete files code =>
      rw [Operation.atoms, Core.perform, runAtoms, Core.complete, Atom.take]
      -- past the first check, what is left depends on whether the code is accepted
      rcases c.ensureSpawned_cases "complete" with ⟨_, h⟩ | ⟨_, h⟩ <;> rw [h]
      show runAtoms c [.setExitCode code, .finalize files] = _
      rw [runAtoms, Atom.take]
      obtain ⟨c', result⟩ := c.setExitCode code
      cases result with
      | error e => rfl
      | ok u => exact runAtoms_single c' _

/-! ## Threads -/

/-- The calls that a thread has still to make, each with the `Atom`s that it has still to take. Only the first
    call may have taken some. -/
abbrev Thread := List (Operation × List Atom)

/-- A thread that is to make `calls`, each with all its `Operation.atoms`. -/
def Thread.ofCalls (calls : List Operation) : Thread :=
  calls.map fun operation => (operation, operation.atoms)

/-- A shared state, `core`, with the threads that use it. -/
structure Threads (ι : Type) where
  core : Core
  thread : ι → Thread

/-- What happens in one `Step` of one thread. -/
structure Act (ι : Type) where
  thread : ι
  call : Operation
  atom : Atom
  /-- The shared state that the `atom` finds. -/
  found : Core
  /-- The result of the `call`, if the step ends it. -/
  result : Option (Except RunnerError Unit)

namespace Threads

variable {ι : Type}

/-- The threads before their first step, with `calls i` for thread `i`. -/
def start (c : Core) (calls : ι → List Operation) : Threads ι :=
  { core := c, thread := fun i => Thread.ofCalls (calls i) }

/-- Every call of every thread has the property `P`. -/
def Each (s : Threads ι) (P : Operation × List Atom → Prop) : Prop := ∀ i, ∀ p ∈ s.thread i, P p

theorem each_start {P : Operation × List Atom → Prop} {c : Core} {calls : ι → List Operation}
    (h : ∀ i, ∀ call ∈ calls i, P (call, call.atoms)) : (start c calls).Each P := by
  intro i p hp
  obtain ⟨call, hcall, rfl⟩ := List.mem_map.mp hp
  exact h i call hcall

theorem Each.head {P : Operation × List Atom → Prop} {s : Threads ι} (h : s.Each P) {i : ι}
    {p : Operation × List Atom} {todo : Thread} (hthread : s.thread i = p :: todo) : P p :=
  h i p (hthread ▸ List.mem_cons_self)

/-- `Each` is about the threads alone, so it does not depend on `core`. -/
theorem Each.congr {P : Operation × List Atom → Prop} {s s' : Threads ι} (h : s.Each P)
    (hsame : s'.thread = s.thread) : s'.Each P := by
  intro i p hp
  rw [hsame] at hp
  exact h i p hp

variable [DecidableEq ι]

/-- The threads after a step of thread `i`. -/
def moved (s : Threads ι) (i : ι) (core : Core) (rest : Thread) : Threads ι :=
  { core, thread := Function.update s.thread i rest }

/-- **`Step`** — some thread takes the next atom of its call. -/
inductive Step : Threads ι → Act ι → Threads ι → Prop where
  | goesOn {s : Threads ι} {i : ι} {call : Operation} {atom next : Atom} {rest : List Atom}
      {todo : Thread} :
      s.thread i = (call, atom :: next :: rest) :: todo →
      (atom.take s.core).2 = .ok () →
      Step s ⟨i, call, atom, s.core, none⟩
        (s.moved i (atom.take s.core).1 ((call, next :: rest) :: todo))
  | succeeds {s : Threads ι} {i : ι} {call : Operation} {atom : Atom} {todo : Thread} :
      s.thread i = (call, [atom]) :: todo →
      (atom.take s.core).2 = .ok () →
      Step s ⟨i, call, atom, s.core, some (.ok ())⟩ (s.moved i (atom.take s.core).1 todo)
  | fails {s : Threads ι} {i : ι} {call : Operation} {atom : Atom} {rest : List Atom}
      {todo : Thread} {e : RunnerError} :
      s.thread i = (call, atom :: rest) :: todo →
      (atom.take s.core).2 = .error e →
      Step s ⟨i, call, atom, s.core, some (.error e)⟩ (s.moved i (atom.take s.core).1 todo)

@[simp] theorem thread_moved_self (s : Threads ι) (i : ι) (core : Core) (rest : Thread) :
    (s.moved i core rest).thread i = rest := by
  show Function.update s.thread i rest i = rest
  exact Function.update_self i rest s.thread

theorem thread_moved_ne (s : Threads ι) {i j : ι} (h : j ≠ i) (core : Core) (rest : Thread) :
    (s.moved i core rest).thread j = s.thread j := by
  show Function.update s.thread i rest j = s.thread j
  exact Function.update_of_ne h rest s.thread

/-- A step of thread `i` keeps the property if the calls that it leaves to the thread have it. -/
theorem Each.moved {P : Operation × List Atom → Prop} {s : Threads ι} (h : s.Each P) {i : ι}
    {p : Operation × List Atom} {todo rest : Thread} (hthread : s.thread i = p :: todo)
    (hrest : ∀ q ∈ rest, q ∈ todo ∨ P q) (core : Core) : (s.moved i core rest).Each P := by
  intro j q hq
  by_cases hj : j = i
  · subst hj
    rw [thread_moved_self] at hq
    rcases hrest q hq with htodo | hP
    · exact h j q (hthread ▸ List.mem_cons_of_mem p htodo)
    · exact hP
  · rw [s.thread_moved_ne hj] at hq
    exact h j q hq

/-- A step that ends a call leaves calls that were there before, so `Each P` is kept. -/
theorem Each.moved_tail {P : Operation × List Atom → Prop} {s : Threads ι} (h : s.Each P) {i : ι}
    {p : Operation × List Atom} {todo : Thread} (hthread : s.thread i = p :: todo) (core : Core) :
    (s.moved i core todo).Each P := by
  refine h.moved hthread ?_ core
  intro q hq
  exact Or.inl hq

/-- A step within a call leaves one call changed, from `p` to `q`. -/
theorem Each.moved_cons {P : Operation × List Atom → Prop} {s : Threads ι} (h : s.Each P) {i : ι}
    {p q : Operation × List Atom} {todo : Thread} (hthread : s.thread i = p :: todo) (hq : P q)
    (core : Core) : (s.moved i core (q :: todo)).Each P := by
  refine h.moved hthread ?_ core
  intro r hr
  rcases List.mem_cons.mp hr with rfl | htodo
  · exact Or.inr hq
  · exact Or.inl htodo

/-- Of two steps of one thread the second one counts: `moved` twice is `moved` once. -/
theorem thread_moved_moved (s : Threads ι) (i : ι) (core core' core'' : Core) (rest rest' : Thread) :
    ((s.moved i core rest).moved i core' rest').thread = (s.moved i core'' rest').thread := by
  show Function.update (Function.update s.thread i rest) i rest' = Function.update s.thread i rest'
  rw [Function.update_idem]

/-- Steps of two threads, `i ≠ j`, leave the same calls in either order. -/
theorem thread_moved_comm (s : Threads ι) {i j : ι} (h : i ≠ j) (core core' : Core)
    (rest rest' : Thread) :
    ((s.moved i core rest).moved j core' rest').thread
      = ((s.moved j core' rest').moved i core rest).thread := by
  show Function.update (Function.update s.thread i rest) j rest' = _
  exact Function.update_comm h rest rest' s.thread

end Threads

/-! ## What a trace tells -/

section Trace

variable {ι : Type}

/-- The `call` that a step ends, with its `result`. -/
def Act.return? (a : Act ι) : Option (Operation × Except RunnerError Unit) :=
  a.result.map fun result => (a.call, result)

/-- **The calls that have returned** (`Act.return?`), with their results, in the order of their last atoms. -/
def returns (trace : List (Act ι)) : List (Operation × Except RunnerError Unit) :=
  trace.filterMap Act.return?

theorem returns_snoc (trace : List (Act ι)) (a : Act ι) :
    returns (trace ++ [a]) = returns trace ++ a.return?.toList :=
  filterMap_snoc Act.return? trace a

/-- The `call` that a step ends with `.ok ()`. -/
def Act.success? (a : Act ι) : Option Operation :=
  match a.result with
  | some (.ok ()) => some a.call
  | _ => none

/-- **The calls that have succeeded** (`Act.success?`), in the order of their last atoms. -/
def successes (trace : List (Act ι)) : List Operation := trace.filterMap Act.success?

theorem successes_snoc (trace : List (Act ι)) (a : Act ι) :
    successes (trace ++ [a]) = successes trace ++ a.success?.toList :=
  filterMap_snoc Act.success? trace a

theorem mem_successes_of_mem_returns {trace : List (Act ι)} {call : Operation}
    (h : (call, .ok ()) ∈ returns trace) : call ∈ successes trace := by
  obtain ⟨a, ha, hreturn⟩ := List.mem_filterMap.mp h
  obtain ⟨result, hresult, heq⟩ := Option.map_eq_some_iff.mp hreturn
  cases heq
  exact List.mem_filterMap.mpr ⟨a, ha, by rw [Act.success?, hresult]⟩

end Trace

/-! ## Every call returns once -/

namespace Threads

variable {ι : Type} [DecidableEq ι]

/-- A thread with something to do is never kept from its next `Step`. -/
theorem exists_step (s : Threads ι) {i : ι} {call : Operation} {atom : Atom} {rest : List Atom}
    {todo : Thread} (h : s.thread i = (call, atom :: rest) :: todo) : ∃ a s', Step s a s' := by
  cases htake : (atom.take s.core).2 with
  | error e => exact ⟨_, _, .fails h htake⟩
  | ok u =>
      cases rest with
      | nil => exact ⟨_, _, .succeeds h htake⟩
      | cons next rest => exact ⟨_, _, .goesOn h htake⟩

/-- The calls of thread `i` that have returned. -/
def returned (i : ι) (trace : List (Act ι)) : List Operation :=
  (returns (trace.filter fun a => a.thread = i)).map Prod.fst

theorem returned_snoc_self (trace : List (Act ι)) (a : Act ι) :
    returned a.thread (trace ++ [a])
      = returned a.thread trace ++ a.return?.toList.map Prod.fst := by
  have hself : [a].filter (fun b => b.thread = a.thread) = [a] :=
    List.filter_cons_of_pos (decide_eq_true rfl)
  unfold returned
  rw [List.filter_append, hself, returns_snoc, List.map_append]

theorem returned_snoc_ne {i : ι} (trace : List (Act ι)) {a : Act ι} (h : i ≠ a.thread) :
    returned i (trace ++ [a]) = returned i trace := by
  have hother : [a].filter (fun b => b.thread = i) = [] :=
    List.filter_cons_of_neg (by rw [decide_eq_true_eq]; exact h.symm)
  unfold returned
  rw [List.filter_append, hother, List.append_nil]

theorem mem_returns_of_returned {i : ι} {trace : List (Act ι)} {call : Operation}
    (h : call ∈ returned i trace) : ∃ result, (call, result) ∈ returns trace := by
  obtain ⟨⟨call, result⟩, hmem, rfl⟩ := List.mem_map.mp h
  obtain ⟨a, ha, hreturn⟩ := List.mem_filterMap.mp hmem
  exact ⟨result, List.mem_filterMap.mpr ⟨a, List.mem_of_mem_filter ha, hreturn⟩⟩

/-- A `Step` leaves the call of its thread in place, or ends it (`return?`). -/
theorem Step.calls {s s' : Threads ι} {a : Act ι} (h : Step s a s') :
    (s.thread a.thread).map Prod.fst
      = a.return?.toList.map Prod.fst ++ (s'.thread a.thread).map Prod.fst := by
  cases h with
  | goesOn hthread _ => rw [hthread, thread_moved_self]; rfl
  | succeeds hthread _ => rw [hthread, thread_moved_self]; rfl
  | fails hthread _ => rw [hthread, thread_moved_self]; rfl

/-- A `Step` touches no other thread. -/
theorem Step.frame {s s' : Threads ι} {a : Act ι} (h : Step s a s') {i : ι} (hi : i ≠ a.thread) :
    s'.thread i = s.thread i := by
  cases h with
  | goesOn _ _ => exact s.thread_moved_ne hi _ _
  | succeeds _ _ => exact s.thread_moved_ne hi _ _
  | fails _ _ => exact s.thread_moved_ne hi _ _

/-- **Every thread makes its calls in order**, each of which returns at most once: those `returned` and those
    that are left are `calls i`. -/
theorem run_calls {c : Core} {calls : ι → List Operation} {trace : List (Act ι)} {s : Threads ι}
    (h : Run Step (start c calls) trace s) (i : ι) :
    calls i = returned i trace ++ (s.thread i).map Prod.fst := by
  induction h with
  | nil =>
      show calls i = (Thread.ofCalls (calls i)).map Prod.fst
      rw [Thread.ofCalls, List.map_map]
      exact (List.map_id _).symm
  | @snoc trace s s' a _ hstep ih =>
      by_cases hi : i = a.thread
      · subst hi
        rw [returned_snoc_self, List.append_assoc, ← hstep.calls]
        exact ih
      · rw [returned_snoc_ne trace hi, hstep.frame hi]
        exact ih

/-- **When a thread has come to its end**, `s.thread i = []`, all its calls have returned. -/
theorem exists_result {c : Core} {calls : ι → List Operation} {trace : List (Act ι)} {s : Threads ι}
    (h : Run Step (start c calls) trace s) {i : ι} (hend : s.thread i = []) {call : Operation}
    (hcall : call ∈ calls i) : ∃ result, (call, result) ∈ returns trace := by
  have hcalls := run_calls h i
  rw [hend, List.map_nil, List.append_nil] at hcalls
  exact mem_returns_of_returned (hcalls ▸ hcall)

end Threads

end TestHarness
