import ReportQuorum.Json.Record

/-!
# The report that an oracle holds

## Main definitions

* `Oracle.Report`: a report handed over by an engine
* `Oracle.ReportStatus`: the same with its stage
-/

namespace ReportQuorum.Oracle

/-- A report handed over by an engine. -/
structure Report where
  /-- Zero if nothing is pending for the reference slot. -/
  report : Digest
  refSlot : Word
  /-- The slot of this moment is the last in which processing may start. -/
  deadline : Word
deriving DecidableEq

namespace Report

/-- The names of the fields, in their order. -/
def fieldNames : List String := ["hash", "ref_slot", "processing_deadline_time"]

instance : JsonForm Report where
  toTree r := .record [
    ("hash", toTree r.report),
    ("ref_slot", toTree r.refSlot),
    ("processing_deadline_time", toTree r.deadline)]
  ofTree? t := do
    let fields ← Json.Fields.ofTree? fieldNames t
    return {
      report := ← fields.required "hash"
      refSlot := ← fields.required "ref_slot"
      deadline := ← fields.required "processing_deadline_time" }

instance : BinaryForm Report where
  toBytes r := toBytes r.report ++ toBytes r.refSlot ++ toBytes r.deadline

end Report

/-- A report with its stage. -/
structure ReportStatus where
  report : Digest
  refSlot : Word
  deadline : Word
  /-- Whether processing has started. -/
  isProcessing : Bool
deriving DecidableEq

namespace ReportStatus

/-- The names of the fields, in their order. -/
def fieldNames : List String :=
  ["hash", "ref_slot", "processing_deadline_time", "processing_started"]

instance : JsonForm ReportStatus where
  toTree r := .record [
    ("hash", toTree r.report),
    ("ref_slot", toTree r.refSlot),
    ("processing_deadline_time", toTree r.deadline),
    ("processing_started", toTree r.isProcessing)]
  ofTree? t := do
    let fields ← Json.Fields.ofTree? fieldNames t
    return {
      report := ← fields.required "hash"
      refSlot := ← fields.required "ref_slot"
      deadline := ← fields.required "processing_deadline_time"
      isProcessing := ← fields.required "processing_started" }

instance : BinaryForm ReportStatus where
  toBytes r := toBytes r.report ++ toBytes r.refSlot ++ toBytes r.deadline ++ toBytes r.isProcessing

end ReportStatus

end ReportQuorum.Oracle
