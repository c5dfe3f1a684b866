/-!
# Strategies of a data link

* `Strategy`              how the data of a link is processed;
* `Strategy.ofEtlConfig?` the strategy that a data source's label stands for.
-/

namespace Linkage

/-- How the data of a link is processed. -/
inductive Strategy where
  | standardV2Series
  | exporterSeries
  | standardSeries
  | standardV2Event
  | baseReport
  | processPerf
  | processPort
  | baseEvent
  | log
  deriving DecidableEq

namespace Strategy

def all : List Strategy :=
  [standardV2Series, exporterSeries, standardSeries, standardV2Event, baseReport, processPerf,
    processPort, baseEvent, log]

def text : Strategy → String
  | standardV2Series => "bk_standard_v2_time_series"
  | exporterSeries => "bk_exporter_time_series"
  | standardSeries => "bk_standard_time_series"
  | standardV2Event => "bk_standard_v2_event"
  | baseReport => "basereport_time_series_v1"
  | processPerf => "system_proc_perf"
  | processPort => "system_proc_port"
  | baseEvent => "base_event_v1"
  | log => "bk_log"

/-- The strategy with a stored name. -/
def ofText? (s : String) : Option Strategy := all.find? fun t => t.text = s

/-- The label of a data source for each strategy that follows from one. -/
def labels : List (String × Strategy) :=
  [("bk_standard_v2_time_series", standardV2Series),
   ("bk_exporter", exporterSeries),
   ("bk_standard", standardSeries),
   ("bk_standard_v2_event", standardV2Event),
   ("bk_system_basereport", baseReport),
   ("bk_multi_tenancy_basereport", baseReport),
   ("bk_multi_tenancy_system_proc_perf", processPerf),
   ("bk_multi_tenancy_system_proc_port", processPort),
   ("bk_multi_tenancy_agent_event", baseEvent)]

/-- The strategy that a data source's label stands for. -/
def ofEtlConfig? (s : String) : Option Strategy := labels.lookup s

theorem ofText?_text (t : Strategy) : ofText? t.text = some t := by cases t <;> decide

end Strategy
end Linkage
