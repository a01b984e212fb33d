import PerfLedger.Measure.Unit

/-!
# About the library

The two components of the library as they present themselves: a version and the names they offer,
sorted by code point.
-/

namespace PerfLedger.About

/-- A component: its version and the names it offers. -/
structure Component where
  version : String
  exports : List String

/-- Measures, operations and results. -/
def core : Component where
  version := "0.1.0"
  exports := ["BaselineVersion", "DataAmount", "DataReporter", "Duration", "MeasuredOperation",
    "MeasuredOperationList", "PerformanceResults", "TestExecutionHistory"]

/-- The results store and its settings. -/
def store : Component where
  version := "0.1.0"
  exports := ["ResultsStore", "load_config", "open_store", "save_config"]

/-- The kinds of measures. -/
def kinds : List MeasureKind := [.duration, .dataAmount]

end PerfLedger.About
