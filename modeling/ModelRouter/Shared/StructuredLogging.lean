import Mathlib.Data.List.Nodup
import ModelRouter.Lib.JsonText

/-!
# Structured logging

A record is logged as one JSON object: four fields of its own, of the values that the call passed as
`extra` those with an allowed key, and the traceback of an exception. The message is one of the
four, whatever it says: records that differ in it differ in their lines (`format_message_iff`).
-/

namespace ModelRouter
open Json

/-- A value that a call passes as `extra`. -/
inductive ExtraValue where
  | text (s : String)
  | int (n : Int)
deriving DecidableEq, Repr

def ExtraValue.json : ExtraValue → Value Int
  | text s => .string (.text s)
  | int n => .number n

/-- A record of the root logger, whose message has its arguments. -/
structure LogRecord where
  levelname : String
  name : String := "root"
  message : String
  extra : List (String × ExtraValue) := []
  /-- `formatException(exc_info)` -/
  exception : Option String := none
deriving DecidableEq, Repr

/-- `_ALLOWED_EXTRA_KEYS` -/
def JsonFormatter.allowedExtraKeys : List String :=
  ["request_id", "decision_id", "application_id", "capability", "model_alias", "provider",
    "error_code", "latency_ms",
   "status_code", "http_method", "resource", "caller_principal_arn"]

/-- The formatter of a process: the order in which the interpreter goes through the set of the
allowed keys. -/
structure JsonFormatter where
  keys : List String
  keys_perm : keys.Perm JsonFormatter.allowedExtraKeys

namespace JsonFormatter

variable (formatter : JsonFormatter)

def extraMembers (record : LogRecord) : List (Str × Value Int) :=
  formatter.keys.filterMap fun key => (record.extra.lookup key).map fun value =>
    (.text key, value.json)

def exceptionMembers (record : LogRecord) : List (Str × Value Int) :=
  record.exception.toList.map fun exception => (.text "exception", .string (.text exception))

def members (timestamp : String) (record : LogRecord) : List (Str × Value Int) :=
  [(.text "timestamp", .string (.text timestamp)),
    (.text "level", .string (.text record.levelname)),
    (.text "logger", .string (.text record.name)),
      (.text "message", .string (.text record.message))] ++
  formatter.extraMembers record ++ exceptionMembers record

def payload (timestamp : String) (record : LogRecord) : Value Int :=
  .object (formatter.members timestamp record)

/-- `format`, of a record that is created at the time. -/
def format (timestamp : String) (record : LogRecord) : String :=
  (formatter.payload timestamp record).dumps

variable {formatter}

theorem mem_extraMembers {record : LogRecord} {member : Str × Value Int}
    (h : member ∈ formatter.extraMembers record) :
    ∃ key ∈ allowedExtraKeys, ∃ value, record.extra.lookup key = some value ∧
      member = (.text key, value.json) := by
  obtain ⟨key, hkey, hmember⟩ := List.mem_filterMap.mp h
  obtain ⟨value, hvalue, rfl⟩ := Option.map_eq_some_iff.mp hmember
  exact ⟨key, formatter.keys_perm.mem_iff.mp hkey, value, hvalue, rfl⟩

theorem isText_json (value : ExtraValue) : value.json.IsText := by
  cases value <;> trivial

theorem isText_payload (timestamp : String) (record : LogRecord) :
    (formatter.payload timestamp record).IsText := by
  refine Value.membersText_iff.mpr fun member hmember => ?_
  rw [members, List.mem_append, List.mem_append] at hmember
  rcases hmember with (hown | hextra) | hexception
  · simp only [List.mem_cons, List.not_mem_nil, or_false] at hown
    rcases hown with rfl | rfl | rfl | rfl <;> exact ⟨trivial, trivial⟩
  · obtain ⟨key, -, value, -, rfl⟩ := mem_extraMembers hextra
    exact ⟨trivial, isText_json value⟩
  · obtain ⟨exception, -, rfl⟩ := List.mem_map.mp hexception
    exact ⟨trivial, trivial⟩

theorem extraMembers_nodup (record : LogRecord) :
    ((formatter.extraMembers record).map (·.1)).Nodup := by
  unfold extraMembers
  rw [List.map_filterMap]
  apply List.Nodup.filterMap _ (formatter.keys_perm.nodup_iff.mpr (by decide))
  intro key key' member h h'
  simp only [Option.map_map, Option.mem_def, Option.map_eq_some_iff] at h h'
  obtain ⟨_, _, rfl⟩ := h
  obtain ⟨_, _, heq⟩ := h'
  exact (Str.text.inj heq).symm

/-- The keys of a line are different: its object is the dictionary in the order in which it was
filled. -/
theorem members_nodup (timestamp : String) (record : LogRecord) :
    ((formatter.members timestamp record).map (·.1)).Nodup := by
  have hextra : ∀ key ∈ (formatter.extraMembers record).map (·.1), ∃ name ∈ allowedExtraKeys,
      key = .text name := by
    intro key hkey
    obtain ⟨member, hmember, rfl⟩ := List.mem_map.mp hkey
    obtain ⟨name, hname, value, -, rfl⟩ := mem_extraMembers hmember
    exact ⟨name, hname, rfl⟩
  have hexception : ∀ key ∈ (exceptionMembers record).map (·.1), key = .text "exception" := by
    intro key hkey
    obtain ⟨member, hmember, rfl⟩ := List.mem_map.mp hkey
    obtain ⟨exception, -, rfl⟩ := List.mem_map.mp hmember
    rfl
  unfold members
  rw [List.map_append, List.map_append]
  refine List.nodup_append'.mpr ⟨List.nodup_append'.mpr ⟨?_, extraMembers_nodup record, ?_⟩, ?_, ?_⟩
  · simp
  · intro key hkey hmem
    obtain ⟨name, hname, rfl⟩ := hextra key hmem
    simp at hkey
    rcases hkey with rfl | rfl | rfl | rfl <;> exact absurd hname (by decide)
  · cases hrecord : record.exception <;> simp [exceptionMembers, hrecord]
  · intro key hkey hmem
    obtain rfl := hexception key hmem
    rcases List.mem_append.mp hkey with hown | hmem
    · simp at hown
    · obtain ⟨name, hname, heq⟩ := hextra _ hmem
      rw [← Str.text.inj heq] at hname
      exact absurd hname (by decide)

/-- The line of a record gives its message away. -/
theorem format_message_iff (timestamp : String) (record : LogRecord) (message message' : String) :
    formatter.format timestamp { record with message := message } =
      formatter.format timestamp { record with message := message' } ↔ message = message' := by
  constructor
  · intro h
    have hpayload := Value.dumps_inj (isText_payload _ _) (isText_payload _ _) h
    simpa [payload, members, extraMembers, exceptionMembers] using hpayload
  · rintro rfl
    rfl

end JsonFormatter

end ModelRouter
