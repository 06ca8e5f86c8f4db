import Sentinel.Startup.Main
import Sentinel.Tasks.Reports

/-! From power-on. What `main` sends and what the tasks send behind it are put together. -/

namespace Sentinel

open Runs (Run)
open Polling (Ends)

/-- The runs of the tasks that begin where `main` has ended. -/
abbrev Boot.Onward (t : Boot) (sr : UInt32) :=
  Run (fun start => start = t.radarStart sr) (radar.Step idleTask)

theorem Boot.Onward.radar {t : Boot} {sr : UInt32} {past : RadarLog}
    {u : Execution Peripherals Place} (run : t.Onward sr past u) (wired : Wired (t.radarStart sr)) :
    RadarRun past u :=
  run.weaken (fun _ here => here ▸ wired) fun _ _ _ step => step

end Sentinel
