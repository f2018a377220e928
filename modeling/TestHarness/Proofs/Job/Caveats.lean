import Mathlib.Data.List.Basic
import TestHarness.Proofs.Core.Calls

/-!
# The caveats of a job

A job is shared by the harness and by all that work on its test, and is told things by each of them. However
their notices are mixed, its caveats are the texts that it was told, each at the place of its first occurrence
(`caveats_notifyAll`), and its status is the last one that it was told.

A runner's calls reach the job by notices only (`Core.job_perform`), and so does a finishing, whose notices
come in one go. What holds of notices in any order therefore holds of any mixture of notices and calls
(`after_eq`).
-/

namespace TestHarness

/-- The caveat that a `Notice` attaches. -/
def Notice.caveat? : Notice → Option String
  | .status _ => none
  | .caveat text => some text

/-! ## First occurrences -/

section FirstOccurrences

variable {α : Type} [DecidableEq α]

/-- An element at the end is kept by `eraseDups` unless it occurs before. -/
theorem eraseDups_concat (l : List α) (a : α) :
    (l ++ [a]).eraseDups = if a ∈ l then l.eraseDups else l.eraseDups ++ [a] := by
  rw [List.eraseDups_append]
  by_cases h : a ∈ l
  · simp [h, List.removeAll]
  · simp [h, List.removeAll, List.eraseDups_cons]

/-- **First occurrences stand in their order**, that of `idxOf` in the list. -/
theorem pairwise_eraseDups (l : List α) :
    l.eraseDups.Pairwise fun a b => l.idxOf a < l.idxOf b := by
  induction l using List.reverseRecOn with
  | nil => exact List.Pairwise.nil
  | append_singleton l a ih =>
      -- what was there before stands where it stood
      have hsame : ∀ x ∈ l.eraseDups, (l ++ [a]).idxOf x = l.idxOf x := by
        intro x hx
        exact List.idxOf_append_of_mem (List.mem_eraseDups.mp hx)
      have hkept : l.eraseDups.Pairwise fun x y => (l ++ [a]).idxOf x < (l ++ [a]).idxOf y := by
        apply ih.imp_of_mem
        intro x y hx hy hlt
        rw [hsame x hx, hsame y hy]
        exact hlt
      rw [eraseDups_concat]
      by_cases hold : a ∈ l
      · rw [if_pos hold]
        exact hkept
      · rw [if_neg hold]
        apply List.pairwise_append.mpr
        refine ⟨hkept, List.pairwise_singleton _ _, ?_⟩
        intro x hx y hy
        have hlast : (l ++ [a]).idxOf y = l.length := by
          rw [List.mem_singleton.mp hy, List.idxOf_append_of_notMem hold]
          simp
        rw [hsame x hx, hlast]
        exact List.idxOf_lt_length_iff.mpr (List.mem_eraseDups.mp hx)

end FirstOccurrences

/-! ## Notices -/

namespace Job

/-- A job whose caveats are `texts.eraseDups` has those of one more text after a notice of it. -/
theorem caveats_notify {j : Job} {texts : List String} (h : j.caveats = texts.eraseDups) (n : Notice) :
    (j.notify n).caveats = (texts ++ n.caveat?.toList).eraseDups := by
  cases n with
  | status s => exact h.trans (congrArg List.eraseDups (List.append_nil texts).symm)
  | caveat text =>
      show (j.addCaveat text).caveats = (texts ++ [text]).eraseDups
      rw [eraseDups_concat, addCaveat, h]
      by_cases hold : text ∈ texts
      · rw [if_pos hold, if_pos (List.mem_eraseDups.mpr hold), h]
      · rw [if_neg hold, if_neg (mt List.mem_eraseDups.mp hold)]

/-- **The caveats are the first occurrences**, `eraseDups`, of the texts that the job was told. -/
theorem caveats_notifyAll {j : Job} {texts : List String} (h : j.caveats = texts.eraseDups)
    (ns : List Notice) :
    (j.notifyAll ns).caveats = (texts ++ ns.filterMap Notice.caveat?).eraseDups := by
  unfold notifyAll
  induction ns generalizing j texts with
  | nil => exact h.trans (congrArg List.eraseDups (List.append_nil texts).symm)
  | cons n ns ih =>
      have hcons : (n :: ns).filterMap Notice.caveat?
          = n.caveat?.toList ++ ns.filterMap Notice.caveat? := by
        simp only [List.filterMap_eq_flatMap_toList, List.flatMap_cons]
      rw [List.foldl_cons, ih (caveats_notify h n), hcons, List.append_assoc]

/-- **Caveats are only added**, and at the end: the old ones are a prefix, `<+:`. -/
theorem caveats_prefix (j : Job) (ns : List Notice) : j.caveats <+: (j.notifyAll ns).caveats := by
  unfold notifyAll
  induction ns generalizing j with
  | nil => exact List.prefix_rfl
  | cons n ns ih =>
      refine List.IsPrefix.trans ?_ (ih (j.notify n))
      cases n with
      | status s => exact List.prefix_rfl
      | caveat text =>
          rw [notify, addCaveat]
          split
          · exact List.prefix_rfl
          · exact List.prefix_append _ _

end Job

/-! ## Calls of runners -/

namespace Core

/-- The notices that a call `operation` gives to the job. -/
def tells (c : Core) (operation : Operation) : List Notice :=
  match operation, (c.perform operation).2 with
  | .readStream stream, _ => stream.readText.2
  | .finalize files, .ok () => (c.finished files).2
  | .complete files _, .ok () => (c.finished files).2
  | _, _ => []

/-- **A call reaches the job by its notices**, `c.tells operation`, and in no other way. -/
theorem job_perform (c : Core) (operation : Operation) :
    (c.perform operation).1.job = c.job.notifyAll (c.tells operation) := by
  cases operation with
  | markSpawned => rcases c.markSpawned_cases with ⟨_, h⟩ | ⟨_, h⟩ <;> rw [perform, h] <;> rfl
  | ensureSpawned operation => rfl
  | append text => rcases c.append_cases text with ⟨_, h⟩ | ⟨_, h⟩ <;> rw [perform, h] <;> rfl
  | appendBytes bytes =>
      rw [perform, appendBytes_eq]
      rcases (c.decoding bytes).append_cases (Utf8.decodeLossy bytes) with ⟨_, h⟩ | ⟨_, h⟩ <;> rw [h] <;>
        exact c.job_decoding bytes
  | readStream stream => rfl
  | setExitCode code =>
      rcases c.setExitCode_cases code with ⟨_, _, h⟩ | ⟨_, _, _, h⟩ | ⟨_, h⟩ <;> rw [perform, h] <;> rfl
  | finalize files =>
      rcases c.finalize_cases files with ⟨_, _, _, h⟩ | ⟨_, _, h⟩ | ⟨_, h⟩ <;>
        simp only [tells, perform, h] <;> rfl
  | complete files code =>
      rcases c.complete_cases files code with ⟨_, _, h⟩ | ⟨_, _, _, h⟩ | ⟨_, h⟩ <;>
        simp only [tells, perform, h] <;> rfl

end Core

/-! ## Whatever reaches a job -/

namespace Job

/-- What reaches a job: a single `Notice`, from anyone, or a call of a runner's shared state. The runner may
    be any of those that have the job, in any state. -/
inductive Event where
  | told (notice : Notice)
  | called (c : Core) (operation : Operation)

/-- The notices of an `Event`. -/
def hears (j : Job) : Event → List Notice
  | .told notice => [notice]
  | .called c operation => { c with job := j }.tells operation

/-- The job after an `Event`. -/
def take (j : Job) : Event → Job
  | .told notice => j.notify notice
  | .called c operation => ({ c with job := j }.perform operation).1.job

/-- The job after `events`, one after the other. -/
def after (j : Job) (events : List Event) : Job := events.foldl take j

/-- The notices of `events`, one after the other: those that the job `hears` when they come. -/
def heard (j : Job) : List Event → List Notice
  | [] => []
  | event :: rest => j.hears event ++ (j.take event).heard rest

theorem take_eq (j : Job) (event : Event) : j.take event = j.notifyAll (j.hears event) := by
  cases event with
  | told notice => rfl
  | called c operation => exact { c with job := j }.job_perform operation

/-- **Events are their notices**: `j.after events = j.notifyAll (j.heard events)`. -/
theorem after_eq (j : Job) (events : List Event) : j.after events = j.notifyAll (j.heard events) := by
  unfold after
  induction events generalizing j with
  | nil => rfl
  | cons event rest ih => rw [List.foldl_cons, ih, heard, notifyAll_append, ← take_eq]

/-- **Caveats and status are exact.** Take any `events` that reach a new job. Its caveats are the texts of all
    caveats among the notices, without those that repeat an earlier one. So it has every one of these texts
    and no other, none of them twice, and the earlier a text occurred first, the earlier it stands; and what
    happens later adds to the end at most. A status changes no caveat and a caveat no status, and the status
    is the last one among the notices. -/
theorem caveats_exact (tester : TestPlan) (events : List Event) :
    let job := ({ tester } : Job).after events
    let notices := ({ tester } : Job).heard events
    let texts := notices.filterMap Notice.caveat?
    job.caveats = texts.eraseDups ∧
    (∀ text, text ∈ job.caveats ↔ text ∈ texts) ∧
    job.caveats.Pairwise (fun a b => texts.idxOf a < texts.idxOf b) ∧
    job.caveats.Nodup ∧
    (∀ later, job.caveats <+: (({ tester } : Job).after (events ++ later)).caveats) ∧
    (∀ (j : Job) (s : Status), (j.setStatus s).caveats = j.caveats) ∧
    (∀ (j : Job) (text : String), (j.addCaveat text).status = j.status) ∧
    job.status = (notices.filterMap Notice.status?).getLast?.getD { kind := .pending, message := "" } := by
  intro job notices texts
  have hjob : job = ({ tester } : Job).notifyAll notices := after_eq _ events
  have hcaveats : job.caveats = texts.eraseDups := by
    have hnone : ({ tester } : Job).caveats = ([] : List String).eraseDups := rfl
    rw [hjob]
    exact caveats_notifyAll hnone notices
  have horder : job.caveats.Pairwise fun a b => texts.idxOf a < texts.idxOf b :=
    hcaveats ▸ pairwise_eraseDups texts
  refine ⟨hcaveats, ?_, horder, ?_, ?_, ?_, ?_, ?_⟩
  · intro text
    rw [hcaveats, List.mem_eraseDups]
  · apply horder.imp
    intro a b hlt heq
    rw [heq] at hlt
    exact Nat.lt_irrefl _ hlt
  · intro later
    have hlater : ({ tester } : Job).after (events ++ later) = job.after later := List.foldl_append
    rw [hlater, after_eq]
    exact caveats_prefix job _
  · intro j s
    rfl
  · intro j text
    exact j.status_notify (.caveat text)
  · rw [hjob, status_notifyAll]

/-- Two runners finish with substitutions, and the harness says `slow` before and after. -/
example :
    let c : Core := { job := default, phase := .spawned, exitCode := some 0, replacedInvalid := true }
    let finishing := Event.called c (.finalize fun _ => none)
    ((default : Job).after
      [.told (.caveat "slow"), finishing, .told (.status (.ofError "lost")), finishing,
        .told (.caveat "slow")]).caveats
      = ["slow", "invalid characters in output"] := by
  decide +kernel

end Job

end TestHarness
