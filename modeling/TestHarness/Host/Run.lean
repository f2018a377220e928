import TestHarness.Host.Step

/-!
# Letting time pass

Processes run in rounds.  In a round every process takes one step if it can, and the clock goes on
by one tick.  When no process can take a step, the clock goes on to the next moment at which one
can.
-/

namespace TestHarness.Host

/-- The time that one round takes. -/
def tick : Duration := 5

/-- The host after the processes with these numbers have taken a step, and whether one of them
    has. -/
def round (h : Host) : List Nat → Host × Bool
  | [] => (h, false)
  | pid :: rest =>
    match (h.process? pid).bind h.stepProcess with
    | some h => ((round h rest).1, true)
    | none => round h rest

/-- The next time at which a sleeping process wakes. -/
def nextWake (h : Host) : Option Duration :=
  (h.processes.filterMap fun p => match p.activity with
    | .sleeping wake => some wake
    | _ => none).min?

/-- Lets time pass until the clock shows `until`.  The first number bounds the rounds; a round for
    every microsecond is always enough. -/
def rounds : Nat → Duration → Host → Host
  | 0, _, h => h
  | n + 1, stop, h =>
    if stop ≤ h.clock then h
    else
      match h.round (h.processes.map Process.pid) with
      | (h, true) => rounds n stop { h with clock := h.clock + tick }
      | (h, false) =>
        let next := max (h.clock + 1) (min stop (h.nextWake.getD stop))
        rounds n stop { h with clock := next }

/-- Lets a span of time pass. -/
def elapse (h : Host) (time : Duration) : Host := rounds time (h.clock + time) h

/-- How the process of that number ended, if it has. -/
def endOf (h : Host) (pid : Nat) : Option ExitStatus :=
  (h.process? pid).bind fun p => match p.activity with
    | .ended status => some status
    | _ => none

end TestHarness.Host
