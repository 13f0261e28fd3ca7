import DocPipeline.Decimal.Fixed
import DocPipeline.Json.Basic
import DocPipeline.Log

namespace DocPipeline

-- Counters over a whole run.
structure Metrics where
  filesParsed : Nat := 0
  filesEmpty : Nat := 0
  filesFiltered : Nat := 0
  parseFailures : Nat := 0
  recordsAdded : Nat := 0
  virtualRecords : Nat := 0
  passes : Nat := 0
  hookInvocations : Nat := 0
  parseTimeMs : Nat := 0
deriving DecidableEq, Inhabited

namespace Metrics

def addFile (m : Metrics) (records : Nat) : Metrics :=
  { m with filesParsed := m.filesParsed + 1, recordsAdded := m.recordsAdded + records }

def addEmptyFile (m : Metrics) : Metrics := { m with filesEmpty := m.filesEmpty + 1 }

def addFiltered (m : Metrics) (count : Nat) : Metrics :=
  { m with filesFiltered := m.filesFiltered + count }

def addFailure (m : Metrics) : Metrics := { m with parseFailures := m.parseFailures + 1 }

def addVirtual (m : Metrics) (records : Nat) : Metrics :=
  { m with virtualRecords := m.virtualRecords + records, recordsAdded := m.recordsAdded + records }

def addPass (m : Metrics) : Metrics := { m with passes := m.passes + 1 }

def addHook (m : Metrics) : Metrics := { m with hookInvocations := m.hookInvocations + 1 }

-- Each span of time counts in whole milliseconds.
def addParseTime (m : Metrics) (micros : Nat) : Metrics :=
  { m with parseTimeMs := m.parseTimeMs + micros / 1000 }

def averageParseTimeMs (m : Metrics) : Float :=
  let files := m.filesParsed + m.filesEmpty
  if files = 0 then 0.0 else Float.ofNat m.parseTimeMs / Float.ofNat files

def summary (m : Metrics) (uptimeSeconds : Float) : List Event :=
  let fixed (x : Float) : String := (Decimal.Binary.ofBits x.toBits).fixed 2
  [⟨.info, "=== Generation Metrics Summary ==="⟩,
   ⟨.info, "Uptime: " ++ fixed uptimeSeconds ++ "s, passes: " ++ toString m.passes⟩,
   ⟨.info, "Files: " ++ toString m.filesParsed ++ " parsed, " ++ toString m.filesEmpty ++
     " empty, " ++ toString m.filesFiltered ++ " filtered out, " ++ toString m.parseFailures ++
     " failed"⟩,
   ⟨.info, "Records: " ++ toString m.recordsAdded ++ " added (" ++ toString m.virtualRecords ++
     " virtual), avg parse " ++ fixed m.averageParseTimeMs ++ "ms"⟩,
   ⟨.info, "Hook invocations: " ++ toString m.hookInvocations⟩]

def toJson (m : Metrics) : Json :=
  .object [("filesParsed", .nat m.filesParsed), ("filesEmpty", .nat m.filesEmpty),
    ("filesFiltered", .nat m.filesFiltered), ("parseFailures", .nat m.parseFailures),
    ("recordsAdded", .nat m.recordsAdded), ("virtualRecords", .nat m.virtualRecords),
    ("passes", .nat m.passes), ("hookInvocations", .nat m.hookInvocations)]

end Metrics

end DocPipeline
