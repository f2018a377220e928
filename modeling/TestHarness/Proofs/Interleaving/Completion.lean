import TestHarness.Proofs.Interleaving.Delivery

/-!
# One completion

However the steps of delivering threads are mixed, at most one of their completions succeeds, and the
finished output is made of exactly the texts that were accepted (`one_completion`).

What carries this is the `Ledger`: in every interleaving the shared state is a function of the calls that
have succeeded.
-/

namespace TestHarness

/-! ## The ledger -/

/-- The files and the exit code of a `complete`. -/
def Operation.completion? : Operation → Option (FileView × Int)
  | .complete files code => some (files, code)
  | _ => none

/-- The texts that calls add to the output (`Operation.text?`), one after the other. -/
def textOf (calls : List Operation) : String := String.join (calls.filterMap Operation.text?)

theorem textOf_snoc (calls : List Operation) (call : Operation) :
    textOf (calls ++ [call]) = textOf calls ++ call.text?.getD "" :=
  join_filterMap_snoc Operation.text? calls call

/-- Some call of `calls` has ill-formed octets. -/
def Substituted (calls : List Operation) : Prop :=
  ∃ bytes, ¬ Utf8.wellFormed bytes = true ∧ .appendBytes bytes ∈ calls

/-- The text that a step finishes, `a.found.output`, if it finishes the output. -/
def Act.handed? {ι : Type} (a : Act ι) : Option String :=
  match a.atom, a.result with
  | .finalize _, some (.ok ()) => some a.found.output
  | _, _ => none

/-- **The texts that were handed over** to be finished, by `Act.handed?`. -/
def handed {ι : Type} (trace : List (Act ι)) : List String := trace.filterMap Act.handed?

/-- The state in which these `calls` have succeeded: `c` with the text of all of them. -/
def Core.delivered (c : Core) (calls : List Operation) (substituted : Bool) (code : Option Int) : Core :=
  { c with output := c.output ++ textOf calls, replacedInvalid := substituted, exitCode := code }

theorem Core.withText_delivered (c : Core) (calls : List Operation) (substituted : Bool)
    (code : Option Int) {call : Operation} {text : String} (htext : call.text? = some text) :
    (c.delivered calls substituted code).withText text
      = c.delivered (calls ++ [call]) substituted code := by
  unfold delivered withText
  rw [textOf_snoc, htext, String.append_assoc]
  rfl

namespace Threads

variable {ι : Type}

/-- **`Ledger`** — as long as no completion has succeeded, the shared state is the first one, `c`, with the
    texts of all calls that have; from then on it is that state, finished, and its text was handed over. In
    both cases a call with ill-formed octets has left its mark in time. -/
inductive Ledger (c : Core) (trace : List (Act ι)) (s : Threads ι) : Prop where
  | opened (substituted : Bool) (code : Option Int) :
      s.core = c.delivered (successes trace) substituted code →
      (Substituted (successes trace) → substituted = true) →
      (successes trace).filterMap Operation.completion? = [] → handed trace = [] → Ledger c trace s
  | finished (substituted late : Bool) (files : FileView) (code : Int) :
      s.core = { (c.delivered (successes trace) substituted (some code)).closed files with
        replacedInvalid := late } →
      (Substituted (successes trace) → substituted = true) →
      (successes trace).filterMap Operation.completion? = [(files, code)] →
      handed trace = [c.output ++ textOf (successes trace)] → Ledger c trace s

theorem ledger_start {c : Core} (hcode : c.exitCode = none) (calls : ι → List Operation) :
    Ledger c [] (start c calls) := by
  refine .opened c.replacedInvalid none ?_ ?_ rfl rfl
  · show c = c.delivered [] c.replacedInvalid none
    have houtput : c.output ++ textOf [] = c.output := String.append_empty
    rw [Core.delivered, houtput, ← hcode]
  · rintro ⟨bytes, _, hmem⟩
    cases hmem

/-! ## Every move keeps the ledger -/

/-- Only a step that ends its call with success has a text `handed?` over. -/
theorem handed?_of_success? {a : Act ι} (h : a.success? = none) : a.handed? = none := by
  obtain ⟨thread, call, atom, found, result⟩ := a
  rcases result with _ | e | u
  · cases atom <;> rfl
  · cases atom <;> rfl
  · cases h

/-- A step that ends no call with success and leaves the shared state alone adds no line to the `Ledger`. -/
theorem Ledger.quiet {c : Core} {trace : List (Act ι)} {s s' : Threads ι} {a : Act ι}
    (h : Ledger c trace s) (ha : a.success? = none) (hcore : s'.core = s.core) :
    Ledger c (trace ++ [a]) s' := by
  have hsuccesses : successes (trace ++ [a]) = successes trace := by
    rw [successes_snoc, ha]; exact List.append_nil _
  have hhanded : handed (trace ++ [a]) = handed trace := by
    rw [handed, filterMap_snoc, handed?_of_success? ha]; exact List.append_nil _
  cases h with
  | opened substituted code hs hsub hnone hempty =>
      refine .opened substituted code ?_ ?_ ?_ ?_
      · rw [hcore, hsuccesses]; exact hs
      · rw [hsuccesses]; exact hsub
      · rw [hsuccesses]; exact hnone
      · rw [hhanded]; exact hempty
  | finished substituted late files code hs hsub hone htext =>
      refine .finished substituted late files code ?_ ?_ ?_ ?_
      · rw [hcore, hsuccesses]; exact hs
      · rw [hsuccesses]; exact hsub
      · rw [hsuccesses]; exact hone
      · rw [hhanded, hsuccesses]; exact htext

/-- A mark may come at any time; after the end `noteSubstitution` changes nothing that counts. -/
theorem Ledger.noteSubstitution {c : Core} {trace : List (Act ι)} {s : Threads ι}
    (h : Ledger c trace s) : Ledger c trace { s with core := s.core.noteSubstitution } := by
  cases h with
  | opened substituted code hs hsub hnone hempty =>
      exact .opened true code (congrArg Core.noteSubstitution hs) (fun _ => rfl) hnone hempty
  | finished substituted late files code hs hsub hone htext =>
      refine .finished substituted true files code ?_ hsub hone htext
      show s.core.noteSubstitution = _
      rw [hs]
      rfl

/-- A recorded exit code is not in the `Ledger` until its completion has succeeded. -/
theorem Ledger.withCode {c : Core} {trace : List (Act ι)} {s : Threads ι} (h : Ledger c trace s)
    (hphase : s.core.phase = .spawned) (code : Int) :
    Ledger c trace { s with core := s.core.withCode code } := by
  cases h with
  | opened substituted old hs hsub hnone hempty =>
      exact .opened substituted (some code) (congrArg (Core.withCode · code) hs) hsub hnone hempty
  | finished substituted late files old hs hsub hone htext =>
      rw [hs] at hphase
      cases hphase

/-- **An accepted text** is added at the end, and ill-formed octets find their mark in the state
    (`IsMarked`). -/
theorem Ledger.accepted {c : Core} {trace : List (Act ι)} {s s' : Threads ι} {a : Act ι}
    (h : Ledger c trace s) {text : String} (hcall : Due a.call [.append text])
    (ha : a.success? = some a.call) (hatom : a.atom = .append text) (hopen : s.core.phase ≠ .completed)
    (hmarked : IsMarked (a.call, [.append text]) → s.core.replacedInvalid = true)
    (hcore : s'.core = s.core.withText text) : Ledger c (trace ++ [a]) s' := by
  have hsuccesses : successes (trace ++ [a]) = successes trace ++ [a.call] := by
    rw [successes_snoc, ha]; rfl
  obtain ⟨htext, hcompletion⟩ : a.call.text? = some text ∧ a.call.completion? = none := by
    generalize a.call = call at hcall
    cases hcall with
    | text text => exact ⟨rfl, rfl⟩
    | decoded bytes => exact ⟨rfl, rfl⟩
  cases h with
  | opened substituted code hs hsub hnone hempty =>
      refine .opened substituted code ?_ ?_ ?_ ?_
      · rw [hcore, hsuccesses, hs]
        exact c.withText_delivered _ substituted code htext
      · rw [hsuccesses]
        rintro ⟨bytes, hwf, hmem⟩
        rcases List.mem_append.mp hmem with hold | hnew
        · exact hsub ⟨bytes, hwf, hold⟩
        · -- the new octets have left their mark in an earlier step
          rw [← List.mem_singleton.mp hnew] at hcall hmarked
          cases hcall
          have hflag := hmarked ⟨bytes, hwf, rfl⟩
          rw [hs] at hflag
          exact hflag
      · rw [hsuccesses, filterMap_snoc, hcompletion, hnone]; rfl
      · have hhanded : a.handed? = none := by rw [Act.handed?, hatom]
        rw [handed, filterMap_snoc, hhanded]
        exact (List.append_nil _).trans hempty
  | finished substituted late files code hs hsub hone htext =>
      rw [hs] at hopen
      exact absurd rfl hopen

/-- **The completion that succeeds** hands over the texts that were accepted before it,
    `a.handed? = some s.core.output`. -/
theorem Ledger.closed {c : Core} {trace : List (Act ι)} {s s' : Threads ι} {a : Act ι}
    (h : Ledger c trace s) {files : FileView} {code : Int}
    (ha : a.success? = some (.complete files code)) (hhanded : a.handed? = some s.core.output)
    (hphase : s.core.phase = .spawned) (hcode : s.core.exitCode = some code)
    (hcore : s'.core = s.core.closed files) : Ledger c (trace ++ [a]) s' := by
  have hsuccesses : successes (trace ++ [a]) = successes trace ++ [.complete files code] := by
    rw [successes_snoc, ha]; rfl
  have htext : textOf (successes trace ++ [.complete files code]) = textOf (successes trace) :=
    (textOf_snoc _ _).trans String.append_empty
  cases h with
  | opened substituted old hs hsub hnone hempty =>
      rw [hs] at hcode
      cases hcode
      refine .finished substituted substituted files code ?_ ?_ ?_ ?_
      · rw [hcore, hsuccesses, hs, Core.delivered, Core.delivered, htext]
        rfl
      · rw [hsuccesses]
        rintro ⟨bytes, hwf, hmem⟩
        rcases List.mem_append.mp hmem with hold | hnew
        · exact hsub ⟨bytes, hwf, hold⟩
        · cases List.mem_singleton.mp hnew
      · rw [hsuccesses, filterMap_snoc, hnone]; rfl
      · rw [handed, filterMap_snoc, hhanded, hsuccesses, htext, hs]
        show handed trace ++ _ = _
        rw [hempty]
        rfl
  | finished substituted late files old hs hsub hone htext =>
      rw [hs] at hphase
      cases hphase

variable [DecidableEq ι]

/-- **Every `Move` keeps the `Ledger`.** -/
theorem Move.ledger {c : Core} {trace : List (Act ι)} {s s' : Threads ι} {a : Act ι}
    (h : Move s a s') (hmarked : s.Marked) (hledger : Ledger c trace s) :
    Ledger c (trace ++ [a]) s' := by
  cases h with
  | accepted hthread hcall hopen =>
      exact hledger.accepted hcall rfl rfl hopen (hmarked.head hthread) rfl
  | marked _ => exact hledger.noteSubstitution.quiet rfl rfl
  | confirmed _ => exact hledger.quiet rfl rfl
  | @claimed i files code todo _ hphase _ => exact (hledger.withCode hphase code).quiet rfl rfl
  | finished _ hphase hcode => exact hledger.closed rfl rfl hphase hcode rfl
  | refused _ _ _ _ => exact hledger.quiet rfl rfl

/-! ## Whole runs -/

/-- **`Delivering`** — what holds in every interleaving of delivering threads. -/
structure Delivering (c : Core) (trace : List (Act ι)) (s : Threads ι) : Prop where
  due : s.Each fun p => Due p.1 p.2
  claim : s.Claim
  marked : s.Marked
  ledger : Ledger c trace s
  late : ∀ call e, (call, .error e) ∈ returns trace → e.IsLate ∧ s.core.exitCode ≠ none

/-- No `Move` takes an exit code away. -/
theorem Move.exitCode_ne_none {s s' : Threads ι} {a : Act ι} (h : Move s a s')
    (hcode : s.core.exitCode ≠ none) : s'.core.exitCode ≠ none := by
  cases h with
  | accepted _ _ _ => exact hcode
  | marked _ => exact hcode
  | confirmed _ => exact hcode
  | claimed _ _ _ => exact Option.some_ne_none _
  | finished _ _ _ => exact hcode
  | refused _ _ _ _ => exact hcode

/-- **A call fails only after some thread has recorded an exit code**, and with an error that says so
    (`IsLate`). -/
theorem Move.late {trace : List (Act ι)} {s s' : Threads ι} {a : Act ι} (h : Move s a s')
    (hlate : ∀ call e, (call, .error e) ∈ returns trace → e.IsLate ∧ s.core.exitCode ≠ none) :
    ∀ call e, (call, .error e) ∈ returns (trace ++ [a]) → e.IsLate ∧ s'.core.exitCode ≠ none := by
  intro call e hmem
  rw [returns_snoc] at hmem
  rcases List.mem_append.mp hmem with hold | hnew
  · obtain ⟨he, hcode⟩ := hlate call e hold
    exact ⟨he, h.exitCode_ne_none hcode⟩
  · cases h with
    | accepted _ _ _ => cases List.mem_singleton.mp hnew
    | marked _ => cases hnew
    | confirmed _ => cases hnew
    | claimed _ _ _ => cases hnew
    | finished _ _ _ => cases List.mem_singleton.mp hnew
    | refused _ _ hcode he =>
        cases List.mem_singleton.mp hnew
        exact ⟨he, hcode⟩

theorem delivering_of_run {c : Core} (hphase : c.phase = .spawned) (hcode : c.exitCode = none)
    {calls : ι → List Operation} (hcalls : ∀ i, ∀ call ∈ calls i, call.IsDelivery)
    {trace : List (Act ι)} {s : Threads ι} (h : Run Step (start c calls) trace s) :
    Delivering c trace s := by
  induction h with
  | nil =>
      refine ⟨?_, ?_, ?_, ledger_start hcode calls, fun _ _ hmem => by cases hmem⟩
      · exact each_start fun i call hcall => due_atoms (hcalls i call hcall)
      · exact .free hphase hcode (each_start fun i call hcall => unclaimed_atoms (hcalls i call hcall))
      · exact each_start fun i call hcall hmark => absurd hmark (not_isMarked_atoms call)
  | snoc _ hstep ih =>
      have hmove := move_of_step ih.due ih.claim hstep
      exact ⟨hmove.due ih.due, hmove.claim ih.claim, hmove.marks ih.marked,
        hmove.ledger ih.marked ih.ledger, hmove.late ih.late⟩

theorem Delivering.completions_length_le {c : Core} {trace : List (Act ι)} {s : Threads ι}
    (h : Delivering c trace s) :
    ((successes trace).filterMap Operation.completion?).length ≤ 1 := by
  cases h.ledger with
  | opened _ _ _ _ hnone _ => rw [hnone]; exact Nat.zero_le 1
  | finished _ _ files code _ _ hone _ => rw [hone]; exact Nat.le_refl 1

/-- **Someone wins.** If a `complete` has returned and no thread is under way, a `complete` has succeeded. -/
theorem Delivering.completions_length {c : Core} (hphase : c.phase = .spawned) {trace : List (Act ι)}
    {s : Threads ι} (h : Delivering c trace s) (hend : ∀ i, s.thread i = []) {files : FileView}
    {code : Int} {result : Except RunnerError Unit}
    (hmem : (.complete files code, result) ∈ returns trace) :
    ((successes trace).filterMap Operation.completion?).length = 1 := by
  cases h.ledger with
  | finished _ _ files code _ _ hone _ => rw [hone]; rfl
  | opened substituted recorded hs _ hnone _ =>
      exfalso
      cases result with
      | ok u =>
          have hin : (files, code) ∈ (successes trace).filterMap Operation.completion? :=
            List.mem_filterMap.mpr ⟨_, mem_successes_of_mem_returns hmem, rfl⟩
          rw [hnone] at hin
          cases hin
      | error e =>
          -- a refused completion means that a thread holds the claim, and then it is not at its end
          obtain ⟨_, hcode⟩ := h.late _ e hmem
          cases h.claim with
          | free _ hfree _ => exact hcode hfree
          | held j _ _ _ _ _ hheld _ => rw [hend j] at hheld; cases hheld
          | spent _ hdone _ _ =>
              have hspawned : s.core.phase = .spawned := by rw [hs]; exact hphase
              rw [hspawned] at hdone
              cases hdone

/-- **One completion.** Any threads make any lists of appends and completions (`Operation.IsDelivery`) of a
    spawned run without an exit code, and their atoms are interleaved in any way. At most one completion
    succeeds, and one does once all threads have come to their end, if there is a completion at all. All
    others come too late.

    After the completion that succeeds the exit code is its own. The text that was handed over is the texts of
    the successful appends, each of them once and in the order of their atoms, and of nothing else. If some of
    them had to be decoded with substitutions, the job has the caveat. -/
theorem one_completion {c : Core} (hphase : c.phase = .spawned) (hcode : c.exitCode = none)
    {calls : ι → List Operation} (hcalls : ∀ i, ∀ call ∈ calls i, call.IsDelivery)
    {trace : List (Act ι)} {s : Threads ι} (h : Run Step (start c calls) trace s) :
    ((successes trace).filterMap Operation.completion?).length ≤ 1 ∧
    ((∀ i, s.thread i = []) → (∃ i files code, .complete files code ∈ calls i) →
      ((successes trace).filterMap Operation.completion?).length = 1) ∧
    (∀ files code e, (.complete files code, .error e) ∈ returns trace →
      (∃ existing, e = .exitCodeAlreadySet existing) ∨
        ∃ operation phase, e = .invalidState operation phase) ∧
    ∀ files code, .complete files code ∈ successes trace →
      s.core.phase = .completed ∧ s.core.exitCode = some code ∧
      ∃ text substituted,
        text = c.output ++ String.join ((successes trace).filterMap Operation.text?) ∧
        handed trace = [text] ∧
        s.core.output
          = (Output.finish files c.redirectedFiles c.headerWidth substituted text).1 ∧
        s.core.job
          = c.job.notifyAll (Output.finish files c.redirectedFiles c.headerWidth substituted text).2 ∧
        ((∃ bytes, ¬ Utf8.wellFormed bytes = true ∧ .appendBytes bytes ∈ successes trace) →
          substituted = true ∧ Output.invalidCharacters ∈ s.core.job.caveats) := by
  have hrun : Delivering c trace s := delivering_of_run hphase hcode hcalls h
  refine ⟨hrun.completions_length_le, ?_, ?_, ?_⟩
  · rintro hend ⟨i, files, code, hcall⟩
    obtain ⟨result, hmem⟩ := exists_result h (hend i) hcall
    exact hrun.completions_length hphase hend hmem
  · intro files code e hmem
    exact (hrun.late _ e hmem).1
  · intro files code hmem
    have hin : (files, code) ∈ (successes trace).filterMap Operation.completion? :=
      List.mem_filterMap.mpr ⟨_, hmem, rfl⟩
    cases hrun.ledger with
    | opened _ _ _ _ hnone _ => rw [hnone] at hin; cases hin
    | finished substituted late files' code' hs hsub hone htext =>
        rw [hone] at hin
        cases List.mem_singleton.mp hin
        have houtput : s.core.output = (Output.finish files c.redirectedFiles c.headerWidth substituted
            (c.output ++ textOf (successes trace))).1 := by rw [hs]; rfl
        have hjob : s.core.job = c.job.notifyAll (Output.finish files c.redirectedFiles c.headerWidth
            substituted (c.output ++ textOf (successes trace))).2 := by rw [hs]; rfl
        refine ⟨by rw [hs]; rfl, by rw [hs]; rfl, _, substituted, rfl, htext, houtput, hjob, ?_⟩
        intro hbytes
        have hflag : substituted = true := hsub hbytes
        refine ⟨hflag, ?_⟩
        rw [hjob, hflag, Output.finish_snd]
        -- the caveat stands between the faults of the files and the error on NULs
        refine Job.mem_caveats_notifyAll (Or.inr ?_)
        exact List.mem_append_left _ (List.mem_append_right _ List.mem_cons_self)

/-- Two threads complete a run, and one of them appends the ill-formed octet `FF` between the atoms of the
    other's completion: the completion that recorded its exit code first is the one that succeeds. -/
theorem one_completion_of_two :
    ∃ (calls : Bool → List Operation) (trace : List (Act Bool)) (s : Threads Bool),
      Run Step (start { job := { tester := Tester.plan { name := "t", command := .ofProgram [] } }
                        phase := .spawned } calls) trace s ∧
      (∀ i, s.thread i = []) ∧
      ((successes trace).filterMap Operation.completion?).length = 1 ∧
      s.core.exitCode = some 3 ∧ Output.invalidCharacters ∈ s.core.job.caveats := by
  have files : FileView := fun _ => none
  generalize hcalls : (fun i => bif i then [.appendBytes [0xFF], .complete files 4]
    else [.complete files 3] : Bool → List Operation) = calls
  have hdelivery : ∀ i, ∀ call ∈ calls i, call.IsDelivery := by
    subst hcalls
    intro i call hcall
    cases i with
    | false =>
        cases List.mem_singleton.mp hcall
        exact .complete files 3
    | true =>
        rcases List.mem_pair.mp hcall with rfl | rfl
        · exact .appendBytes _
        · exact .complete files 4
  obtain ⟨trace, s, hrun, hsuccesses, hend⟩ : ∃ trace s,
      Run Step (start { job := { tester := Tester.plan { name := "t", command := .ofProgram [] } }
                        phase := .spawned } calls) trace s ∧
      successes trace = [.appendBytes [0xFF], .complete files 3] ∧ ∀ i, s.thread i = [] := by
    subst hcalls
    refine ⟨_, _, ((((((Run.nil.snoc (.goesOn (i := true) rfl rfl)).snoc
      (.goesOn (i := false) rfl rfl)).snoc (.succeeds (i := true) rfl rfl)).snoc
      (.goesOn (i := true) rfl rfl)).snoc (.goesOn (i := false) rfl rfl)).snoc
      (.fails (i := true) rfl rfl)).snoc (.succeeds (i := false) rfl rfl), rfl, ?_⟩
    rintro (_ | _) <;> rfl
  obtain ⟨_, hone, _, hwon⟩ := one_completion rfl rfl hdelivery hrun
  have hlast : .complete files 3 ∈ successes trace := by
    rw [hsuccesses]; exact List.mem_cons_of_mem _ List.mem_cons_self
  have hbytes : .appendBytes [0xFF] ∈ successes trace := by
    rw [hsuccesses]; exact List.mem_cons_self
  obtain ⟨_, hcode, text, substituted, _, _, _, _, hcaveat⟩ := hwon files 3 hlast
  refine ⟨calls, trace, s, hrun, hend, hone hend ⟨false, files, 3, ?_⟩, hcode,
    (hcaveat ⟨[0xFF], by decide, hbytes⟩).2⟩
  subst hcalls
  exact List.mem_cons_self

end Threads

end TestHarness
