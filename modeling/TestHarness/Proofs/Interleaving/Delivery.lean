import TestHarness.Proofs.Interleaving.Threads

/-!
# Threads that deliver one run's output

Any number of threads append to the output of a spawned run and complete it, and other threads act
between the atoms of every call. What such a thread can do in one step is one of six moves
(`move_of_step`), and each of them keeps two invariants:

* `Claim`: the exit code is recorded by at most one thread, and until that thread has finished the output
  no other thread can;
* `Marked`: a thread that is about to append ill-formed octets has left its mark before.
-/

namespace TestHarness

/-- The calls that deliver a run's output and result: `append`, `appendBytes` and `complete`. -/
inductive Operation.IsDelivery : Operation → Prop where
  | append (text : String) : IsDelivery (.append text)
  | appendBytes (bytes : Bytes) : IsDelivery (.appendBytes bytes)
  | complete (files : FileView) (code : Int) : IsDelivery (.complete files code)

/-- The errors of a call that comes too late: the run is not `.spawned` any more, or it has an exit code. -/
def RunnerError.IsLate (e : RunnerError) : Prop :=
  (∃ existing, e = .exitCodeAlreadySet existing) ∨ ∃ operation phase, e = .invalidState operation phase

namespace Threads

/-! ## What a thread has still to take -/

/-- **`Due`** — the atoms that a delivering thread may have still to take of a call. -/
inductive Due : Operation → List Atom → Prop where
  | text (text : String) : Due (.append text) [.append text]
  | decoded (bytes : Bytes) : Due (.appendBytes bytes) [.append (Utf8.decodeLossy bytes)]
  | unmarked (bytes : Bytes) : ¬ Utf8.wellFormed bytes = true →
      Due (.appendBytes bytes) [.noteSubstitution, .append (Utf8.decodeLossy bytes)]
  | unconfirmed (files : FileView) (code : Int) :
      Due (.complete files code) [.ensureSpawned "complete", .setExitCode code, .finalize files]
  | confirmed (files : FileView) (code : Int) :
      Due (.complete files code) [.setExitCode code, .finalize files]
  | claimed (files : FileView) (code : Int) : Due (.complete files code) [.finalize files]

/-- A call that is not about to finish the output: what it has still to take is not `[.finalize files]`. -/
def Unclaimed (p : Operation × List Atom) : Prop := ∀ files, p.2 ≠ [.finalize files]

/-- A call that is about to append ill-formed octets, after `noteSubstitution`. -/
def IsMarked (p : Operation × List Atom) : Prop :=
  ∃ bytes, ¬ Utf8.wellFormed bytes = true ∧
    p = (.appendBytes bytes, [.append (Utf8.decodeLossy bytes)])

/-- An `.append` is never about to finish the output. -/
theorem unclaimed_append (call : Operation) (text : String) : Unclaimed (call, [.append text]) := by
  intro files heq
  cases heq

/-- A call with two atoms left is not about to finish the output, so it is `Unclaimed`. -/
theorem unclaimed_cons_cons (call : Operation) (atom next : Atom) (rest : List Atom) :
    Unclaimed (call, atom :: next :: rest) := by
  intro files heq
  cases heq

/-- A `complete` is not `IsMarked`. -/
theorem not_isMarked_complete (files : FileView) (code : Int) (atoms : List Atom) :
    ¬ IsMarked (.complete files code, atoms) := by
  rintro ⟨bytes, _, heq⟩
  cases heq

/-! ### Before its first atom -/

theorem due_atoms {call : Operation} (h : call.IsDelivery) : Due call call.atoms := by
  cases h with
  | append text => exact .text text
  | appendBytes bytes =>
      by_cases hwf : Utf8.wellFormed bytes = true
      · rw [Operation.atoms, if_pos hwf]; exact .decoded bytes
      · rw [Operation.atoms, if_neg hwf]; exact .unmarked bytes hwf
  | complete files code => exact .unconfirmed files code

theorem unclaimed_atoms {call : Operation} (h : call.IsDelivery) : Unclaimed (call, call.atoms) := by
  cases h with
  | append text => exact unclaimed_append _ text
  | appendBytes bytes =>
      by_cases hwf : Utf8.wellFormed bytes = true
      · rw [Operation.atoms, if_pos hwf]; exact unclaimed_append _ _
      · rw [Operation.atoms, if_neg hwf]; exact unclaimed_cons_cons _ _ _ _
  | complete files code => exact unclaimed_cons_cons _ _ _ _

/-- A call with ill-formed octets starts with `noteSubstitution` and not with the append. -/
theorem not_isMarked_atoms (call : Operation) : ¬ IsMarked (call, call.atoms) := by
  rintro ⟨bytes, hwf, heq⟩
  obtain ⟨rfl, hatoms⟩ := Prod.mk.inj heq
  rw [Operation.atoms, if_neg hwf] at hatoms
  cases hatoms

/-! ### At a refused atom -/

/-- A call either is about to finish the output, and is then the `complete` that recorded the exit code, or it
    is `Unclaimed`. -/
theorem Due.claimed_or_unclaimed {call : Operation} {atoms : List Atom} (h : Due call atoms) :
    (∃ files code, call = .complete files code ∧ atoms = [.finalize files])
      ∨ Unclaimed (call, atoms) := by
  cases h with
  | claimed files code => exact Or.inl ⟨files, code, rfl, rfl⟩
  | text text => exact Or.inr (unclaimed_append _ text)
  | decoded bytes => exact Or.inr (unclaimed_append _ _)
  | unmarked bytes _ => exact Or.inr (unclaimed_cons_cons _ _ _ _)
  | unconfirmed files code => exact Or.inr (unclaimed_cons_cons _ _ _ _)
  | confirmed files code => exact Or.inr (unclaimed_cons_cons _ _ _ _)

/-- **A refused atom changes nothing**, unless it is `finalize`: the run is not `.spawned` any more or it has
    an exit code, and the error says so (`IsLate`). -/
theorem Due.refused {c : Core} {call : Operation} {atom : Atom} {rest : List Atom} {e : RunnerError}
    (h : Due call (atom :: rest)) (hun : Unclaimed (call, atom :: rest))
    (herror : (atom.take c).2 = .error e) :
    (atom.take c).1 = c ∧ e.IsLate ∧ (c.phase ≠ .spawned ∨ c.exitCode ≠ none) := by
  -- both kinds of append end in the same atom, so it is treated once
  have happend : ∀ text, (c.append text).2 = .error e →
      (c.append text).1 = c ∧ e.IsLate ∧ (c.phase ≠ .spawned ∨ c.exitCode ≠ none) := by
    intro text herror
    rcases c.append_cases text with ⟨_, h⟩ | ⟨hdone, h⟩ <;> rw [h] at herror ⊢
    · cases herror
    · have hphase : c.phase ≠ .spawned := by rw [hdone]; decide
      cases herror
      exact ⟨rfl, Or.inr ⟨_, _, rfl⟩, Or.inl hphase⟩
  cases h with
  | text text => exact happend text herror
  | decoded bytes => exact happend _ herror
  | unmarked bytes _ => cases herror
  | unconfirmed files code =>
      rw [Atom.take] at herror ⊢
      rcases c.ensureSpawned_cases "complete" with ⟨_, h⟩ | ⟨hphase, h⟩ <;> rw [h] at herror
      · cases herror
      · cases herror
        exact ⟨rfl, Or.inr ⟨_, _, rfl⟩, Or.inl hphase⟩
  | confirmed files code =>
      rw [Atom.take] at herror ⊢
      rcases c.setExitCode_cases code with ⟨_, _, h⟩ | ⟨existing, _, hcode, h⟩ | ⟨hphase, h⟩ <;>
        rw [h] at herror ⊢
      · cases herror
      · have hsome : c.exitCode ≠ none := by rw [hcode]; exact Option.some_ne_none existing
        cases herror
        exact ⟨rfl, Or.inl ⟨existing, rfl⟩, Or.inr hsome⟩
      · cases herror
        exact ⟨rfl, Or.inr ⟨_, _, rfl⟩, Or.inl hphase⟩
  | claimed files code => exact absurd rfl (hun files)

/-! ## The claim on the exit code -/

variable {ι : Type} [DecidableEq ι]

/-- **`Claim`** — no thread has recorded an exit code yet; or one has, and is about to finish the output; or
    the output is finished. -/
inductive Claim (s : Threads ι) : Prop where
  | free : s.core.phase = .spawned → s.core.exitCode = none → s.Each Unclaimed → Claim s
  | held (i : ι) (files : FileView) (code : Int) (todo : Thread) :
      s.core.phase = .spawned → s.core.exitCode = some code →
      s.thread i = (.complete files code, [.finalize files]) :: todo →
      (s.moved i s.core todo).Each Unclaimed → Claim s
  | spent (code : Int) : s.core.phase = .completed → s.core.exitCode = some code →
      s.Each Unclaimed → Claim s

theorem Claim.exitCode_ne_none {s : Threads ι} (h : Claim s)
    (hlate : s.core.phase ≠ .spawned ∨ s.core.exitCode ≠ none) : s.core.exitCode ≠ none := by
  rcases hlate with hphase | hcode
  · cases h with
    | free hspawned _ _ => exact absurd hspawned hphase
    | held _ _ _ _ hspawned _ _ _ => exact absurd hspawned hphase
    | spent code _ hcode _ => rw [hcode]; exact Option.some_ne_none code
  · exact hcode

/-- **Whoever is about to finish the output holds the `Claim`**, with its own exit code. -/
theorem Claim.of_finalize {s : Threads ι} (h : Claim s) {i : ι} {files : FileView} {code : Int}
    {todo : Thread} (hthread : s.thread i = (.complete files code, [.finalize files]) :: todo) :
    s.core.phase = .spawned ∧ s.core.exitCode = some code ∧
      (s.moved i s.core todo).Each Unclaimed := by
  cases h with
  | free _ _ hfree => exact absurd rfl (hfree.head hthread files)
  | spent _ _ _ hfree => exact absurd rfl (hfree.head hthread files)
  | held j files' code' todo' hphase hcode hheld hothers =>
      by_cases hij : i = j
      · subst hij
        rw [hthread] at hheld
        cases hheld
        exact ⟨hphase, hcode, hothers⟩
      · have hsame := (s.thread_moved_ne hij s.core todo').trans hthread
        exact absurd rfl (hothers.head hsame files)

/-! ## Moves -/

/-- **`Move`** — what a delivering thread can do in one step. -/
inductive Move (s : Threads ι) : Act ι → Threads ι → Prop where
  | accepted {i : ι} {call : Operation} {text : String} {todo : Thread} :
      s.thread i = (call, [.append text]) :: todo → Due call [.append text] →
      s.core.phase ≠ .completed →
      Move s ⟨i, call, .append text, s.core, some (.ok ())⟩ (s.moved i (s.core.withText text) todo)
  | marked {i : ι} {bytes : Bytes} {todo : Thread} :
      s.thread i = (.appendBytes bytes, [.noteSubstitution, .append (Utf8.decodeLossy bytes)]) :: todo →
      Move s ⟨i, .appendBytes bytes, .noteSubstitution, s.core, none⟩
        (s.moved i s.core.noteSubstitution
          ((.appendBytes bytes, [.append (Utf8.decodeLossy bytes)]) :: todo))
  | confirmed {i : ι} {files : FileView} {code : Int} {todo : Thread} :
      s.thread i = (.complete files code,
        [.ensureSpawned "complete", .setExitCode code, .finalize files]) :: todo →
      Move s ⟨i, .complete files code, .ensureSpawned "complete", s.core, none⟩
        (s.moved i s.core ((.complete files code, [.setExitCode code, .finalize files]) :: todo))
  | claimed {i : ι} {files : FileView} {code : Int} {todo : Thread} :
      s.thread i = (.complete files code, [.setExitCode code, .finalize files]) :: todo →
      s.core.phase = .spawned → s.core.exitCode = none →
      Move s ⟨i, .complete files code, .setExitCode code, s.core, none⟩
        (s.moved i (s.core.withCode code) ((.complete files code, [.finalize files]) :: todo))
  | finished {i : ι} {files : FileView} {code : Int} {todo : Thread} :
      s.thread i = (.complete files code, [.finalize files]) :: todo →
      s.core.phase = .spawned → s.core.exitCode = some code →
      Move s ⟨i, .complete files code, .finalize files, s.core, some (.ok ())⟩
        (s.moved i (s.core.closed files) todo)
  | refused {i : ι} {call : Operation} {atom : Atom} {rest : List Atom} {todo : Thread}
      {e : RunnerError} :
      s.thread i = (call, atom :: rest) :: todo → Unclaimed (call, atom :: rest) →
      s.core.exitCode ≠ none → e.IsLate →
      Move s ⟨i, call, atom, s.core, some (.error e)⟩ (s.moved i s.core todo)

/-- A step that leaves its call under way leaves a mark, confirms the phase or records the exit code: it is
    one of the `Move`s. -/
theorem move_of_goesOn {s : Threads ι} {i : ι} {call : Operation} {atom next : Atom}
    {rest : List Atom} {todo : Thread} (hthread : s.thread i = (call, atom :: next :: rest) :: todo)
    (hcall : Due call (atom :: next :: rest)) (hok : (atom.take s.core).2 = .ok ()) :
    Move s ⟨i, call, atom, s.core, none⟩
      (s.moved i (atom.take s.core).1 ((call, next :: rest) :: todo)) := by
  cases hcall with
  | unmarked bytes _ => exact .marked hthread
  | unconfirmed files code => exact .confirmed hthread
  | confirmed files code =>
      rw [Atom.take] at hok ⊢
      rcases s.core.setExitCode_cases code with ⟨hphase, hcode, h⟩ | ⟨_, _, _, h⟩ | ⟨_, h⟩ <;>
        rw [h] at hok
      · rw [h]; exact .claimed hthread hphase hcode
      · cases hok
      · cases hok

/-- A step that ends its call with `.ok ()` appends a text or finishes the output. -/
theorem move_of_succeeds {s : Threads ι} (hclaim : Claim s) {i : ι} {call : Operation} {atom : Atom}
    {todo : Thread} (hthread : s.thread i = (call, [atom]) :: todo) (hcall : Due call [atom])
    (hok : (atom.take s.core).2 = .ok ()) :
    Move s ⟨i, call, atom, s.core, some (.ok ())⟩ (s.moved i (atom.take s.core).1 todo) := by
  have happend : ∀ text, atom = .append text →
      Move s ⟨i, call, atom, s.core, some (.ok ())⟩ (s.moved i (atom.take s.core).1 todo) := by
    rintro text rfl
    rw [Atom.take] at hok ⊢
    rcases s.core.append_cases text with ⟨hopen, h⟩ | ⟨_, h⟩ <;> rw [h] at hok
    · rw [h]; exact .accepted hthread hcall hopen
    · cases hok
  cases hcall with
  | text text => exact happend text rfl
  | decoded bytes => exact happend _ rfl
  | claimed files code =>
      -- the exit code is the one of this call, and not of another
      obtain ⟨hphase, hcode, _⟩ := hclaim.of_finalize hthread
      rw [Atom.take] at hok ⊢
      rcases s.core.finalize_cases files with ⟨_, _, _, h⟩ | ⟨_, _, h⟩ | ⟨_, h⟩ <;> rw [h] at hok
      · rw [h]; exact .finished hthread hphase hcode
      · cases hok
      · cases hok

/-- A step that ends its call with an error comes too late (`IsLate`). -/
theorem move_of_fails {s : Threads ι} (hclaim : Claim s) {i : ι} {call : Operation} {atom : Atom}
    {rest : List Atom} {todo : Thread} {e : RunnerError}
    (hthread : s.thread i = (call, atom :: rest) :: todo) (hcall : Due call (atom :: rest))
    (herror : (atom.take s.core).2 = .error e) :
    Move s ⟨i, call, atom, s.core, some (.error e)⟩ (s.moved i (atom.take s.core).1 todo) := by
  rcases hcall.claimed_or_unclaimed with ⟨files, code, rfl, hatoms⟩ | hun
  · cases hatoms
    -- whoever holds the claim finds the state spawned and with an exit code, and is not refused
    obtain ⟨hphase, hcode, _⟩ := hclaim.of_finalize hthread
    rw [Atom.take] at herror
    rcases s.core.finalize_cases files with ⟨_, _, _, h⟩ | ⟨_, hnone, _⟩ | ⟨hne, _⟩
    · rw [h] at herror; cases herror
    · exact absurd (hcode.symm.trans hnone) (Option.some_ne_none code)
    · exact absurd hphase hne
  · obtain ⟨hsame, hlate, hbusy⟩ := hcall.refused hun herror
    have hcode : s.core.exitCode ≠ none := hclaim.exitCode_ne_none hbusy
    rw [hsame]
    exact .refused hthread hun hcode hlate

/-- **Every `Step` is a `Move`.** -/
theorem move_of_step {s s' : Threads ι} {a : Act ι} (hdue : s.Each fun p => Due p.1 p.2)
    (hclaim : Claim s) (h : Step s a s') : Move s a s' := by
  cases h with
  | goesOn hthread hok => exact move_of_goesOn hthread (hdue.head hthread) hok
  | succeeds hthread hok => exact move_of_succeeds hclaim hthread (hdue.head hthread) hok
  | fails hthread herror => exact move_of_fails hclaim hthread (hdue.head hthread) herror

/-! ## Every move keeps the invariants -/

theorem Move.due {s s' : Threads ι} {a : Act ι} (h : Move s a s') (hdue : s.Each fun p => Due p.1 p.2) :
    s'.Each fun p => Due p.1 p.2 := by
  cases h with
  | accepted hthread _ _ => exact hdue.moved_tail hthread _
  | finished hthread _ _ => exact hdue.moved_tail hthread _
  | refused hthread _ _ _ => exact hdue.moved_tail hthread _
  | @marked i bytes todo hthread => exact hdue.moved_cons hthread (Due.decoded bytes) _
  | @confirmed i files code todo hthread =>
      exact hdue.moved_cons hthread (Due.confirmed files code) _
  | @claimed i files code todo hthread _ _ =>
      exact hdue.moved_cons hthread (Due.claimed files code) _

/-- **A step that neither makes nor uses a `Claim`** keeps it: the thread that takes the step is not the
    holder, and it is not about to finish the output afterwards. -/
theorem Claim.keep {s : Threads ι} (h : Claim s) {i : ι} {p : Operation × List Atom}
    {todo rest : Thread} {core : Core} (hthread : s.thread i = p :: todo) (hp : Unclaimed p)
    (hrest : ∀ q ∈ rest, q ∈ todo ∨ Unclaimed q) (hphase : core.phase = s.core.phase)
    (hcode : core.exitCode = s.core.exitCode) : Claim (s.moved i core rest) := by
  cases h with
  | free hspawned hnone hfree =>
      have hfree' : (s.moved i core rest).Each Unclaimed := hfree.moved hthread hrest core
      exact .free (hphase.trans hspawned) (hcode.trans hnone) hfree'
  | spent code hdone hsome hfree =>
      have hfree' : (s.moved i core rest).Each Unclaimed := hfree.moved hthread hrest core
      exact .spent code (hphase.trans hdone) (hcode.trans hsome) hfree'
  | held j files code todo' hspawned hsome hheld hothers =>
      have hij : i ≠ j := by
        rintro rfl
        rw [hheld] at hthread
        cases hthread
        exact hp files rfl
      have hheld' : (s.moved i core rest).thread j = (.complete files code, [.finalize files]) :: todo' :=
        (s.thread_moved_ne hij.symm core rest).trans hheld
      have hsame : (s.moved j s.core todo').thread i = p :: todo :=
        (s.thread_moved_ne hij s.core todo').trans hthread
      -- the other calls after both steps, which do not depend on the order of the steps
      have hothers' := (hothers.moved hsame hrest core).congr (s.thread_moved_comm hij core _ rest todo')
      exact .held j files code todo' (hphase.trans hspawned) (hcode.trans hsome) hheld' hothers'

/-- A step that ends an `Unclaimed` call keeps the `Claim`. -/
theorem Claim.keep_tail {s : Threads ι} (h : Claim s) {i : ι} {p : Operation × List Atom}
    {todo : Thread} {core : Core} (hthread : s.thread i = p :: todo) (hp : Unclaimed p)
    (hphase : core.phase = s.core.phase) (hcode : core.exitCode = s.core.exitCode) :
    Claim (s.moved i core todo) := by
  refine h.keep hthread hp ?_ hphase hcode
  intro q hq
  exact Or.inl hq

/-- A step within a call that is `Unclaimed` before and after keeps the `Claim`. -/
theorem Claim.keep_cons {s : Threads ι} (h : Claim s) {i : ι} {p q : Operation × List Atom}
    {todo : Thread} {core : Core} (hthread : s.thread i = p :: todo) (hp : Unclaimed p)
    (hq : Unclaimed q) (hphase : core.phase = s.core.phase) (hcode : core.exitCode = s.core.exitCode) :
    Claim (s.moved i core (q :: todo)) := by
  refine h.keep hthread hp ?_ hphase hcode
  intro r hr
  rcases List.mem_cons.mp hr with rfl | htodo
  · exact Or.inr hq
  · exact Or.inl htodo

/-- **Every `Move` keeps the `Claim`**: it is made when no one holds it, and used by its holder only. -/
theorem Move.claim {s s' : Threads ι} {a : Act ι} (h : Move s a s') (hclaim : Claim s) :
    Claim s' := by
  cases h with
  | accepted hthread _ _ => exact hclaim.keep_tail hthread (unclaimed_append _ _) rfl rfl
  | refused hthread hun _ _ => exact hclaim.keep_tail hthread hun rfl rfl
  | marked hthread =>
      exact hclaim.keep_cons hthread (unclaimed_cons_cons _ _ _ _) (unclaimed_append _ _) rfl rfl
  | confirmed hthread =>
      exact hclaim.keep_cons hthread (unclaimed_cons_cons _ _ _ _) (unclaimed_cons_cons _ _ _ _) rfl rfl
  | @claimed i files code todo hthread hphase hnone =>
      -- without an exit code no one can hold the claim
      have hfree : s.Each Unclaimed := by
        cases hclaim with
        | free _ _ hfree => exact hfree
        | held _ _ code _ _ hsome _ _ => exact absurd (hsome.symm.trans hnone) (Option.some_ne_none code)
        | spent code _ hsome _ => exact absurd (hsome.symm.trans hnone) (Option.some_ne_none code)
      refine .held i files code todo hphase rfl (s.thread_moved_self i _ _) ?_
      -- without the claimed call the thread is left as if the call had ended
      have htail : (s.moved i s.core todo).Each Unclaimed := hfree.moved_tail hthread s.core
      exact htail.congr (s.thread_moved_moved i _ _ _ _ todo)
  | @finished i files code todo hthread hphase hcode =>
      obtain ⟨_, _, hothers⟩ := hclaim.of_finalize hthread
      exact .spent code rfl hcode hothers

/-- A thread that is about to append ill-formed octets (`IsMarked`) has left its mark. -/
def Marked (s : Threads ι) : Prop := s.Each fun p => IsMarked p → s.core.replacedInvalid = true

/-- **Every `Move` keeps the marks.** Only the step that leaves a mark puts a call into need of it. -/
theorem Move.marks {s s' : Threads ι} {a : Act ι} (h : Move s a s') (hmarked : s.Marked) :
    s'.Marked := by
  cases h with
  | accepted hthread _ _ => exact hmarked.moved_tail hthread _
  | finished hthread _ _ => exact hmarked.moved_tail hthread _
  | refused hthread _ _ _ => exact hmarked.moved_tail hthread _
  | marked hthread =>
      intro j p _ _
      rfl
  | confirmed hthread =>
      exact hmarked.moved_cons hthread (fun h => absurd h (not_isMarked_complete _ _ _)) _
  | claimed hthread _ _ =>
      exact hmarked.moved_cons hthread (fun h => absurd h (not_isMarked_complete _ _ _)) _

end Threads

end TestHarness
