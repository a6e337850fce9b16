import DeviceScript.Bus.Basic
import DeviceScript.Run.Notice
/-!
# Notices on the bus

A publisher is an observer that fires an event on a bus for every cursor, state and log notice it
hears.  Every event carries the context of the run that began last; the begin of a run is not an
event of its own.
-/

namespace DeviceScript

/-- A bus, and the context that the next events carry. -/
structure Publisher where
  bus : Bus
  context : Context

namespace Publisher

/-- A publisher that has not heard of any run. -/
def ofBus (bus : Bus) : Publisher :=
  ⟨bus, ⟨"", none⟩⟩

/-- The publisher after it heard a notice at some moment; `run` identifies the run that begins, if
the notice says that one does. -/
def hear (p : Publisher) (moment : Timestamp) (run : String) : Notice → Publisher
  | .started script => { p with context := ⟨run, script⟩ }
  | .cursor line => { p with bus := p.bus.fireTyped (CursorChanged.mk line) moment p.context }
  | .state s => { p with bus := p.bus.fireTyped (StateChanged.mk s) moment p.context }
  | .log e => { p with bus := p.bus.fireTyped (e.stamped moment) moment p.context }

end Publisher

end DeviceScript
