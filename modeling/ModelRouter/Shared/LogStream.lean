import ModelRouter.Lib.JsonLines
import ModelRouter.Shared.StructuredLogging

/-!
# The log stream

The handler of the root logger writes the line of every record to one stream. Whatever the records
say, the stream is read back as they were logged (`stream_read`): one line a record, one JSON object
a line, and in the object the fields of that record and no others. A message, a traceback or a value
of `extra` neither ends its line nor adds a field.
-/

namespace ModelRouter
open Json

namespace JsonFormatter

variable (formatter : JsonFormatter)

/-- What `StreamHandler.emit` writes of the records, each created at its time: the line and the
terminator. -/
def stream (emitted : List (String × LogRecord)) : String :=
  String.ofList (emitted.flatMap fun entry => (formatter.format entry.1 entry.2).toList ++ ['\n'])

/-- What a reader is to find of a record under a key. -/
def field (timestamp : String) (record : LogRecord) (key : String) : Option (Value Int) :=
  if key = "timestamp" then some (.string (.text timestamp))
  else if key = "level" then some (.string (.text record.levelname))
  else if key = "logger" then some (.string (.text record.name))
  else if key = "message" then some (.string (.text record.message))
  else if key = "exception" then record.exception.map fun exception => .string (.text exception)
  else if key ∈ allowedExtraKeys then (record.extra.lookup key).map ExtraValue.json
  else none

variable {formatter}

theorem stream_eq (emitted : List (String × LogRecord)) :
    formatter.stream emitted =
      (asciiStyle [' ']).stream (emitted.map fun entry => formatter.payload entry.1 entry.2) := by
  have hline (entry : String × LogRecord) : (formatter.format entry.1 entry.2).toList =
      (asciiStyle [' ']).write (formatter.payload entry.1 entry.2) := by
    rw [write_ascii, format, Value.dumps, String.toList_ofList]
  simp only [stream, Style.stream, List.flatMap_map, hline]

theorem scalar_json (value : ExtraValue) :
    value.json.Plain (fun _ => True) ∧ value.json.depth = 0 := by
  cases value <;> exact ⟨trivial, rfl⟩

theorem scalar_members {timestamp : String} {record : LogRecord} {member : Str × Value Int}
    (h : member ∈ formatter.members timestamp record) :
    member.1.IsText ∧ member.2.Plain (fun _ => True) ∧ member.2.depth = 0 := by
  rw [members, List.mem_append, List.mem_append] at h
  rcases h with (hown | hextra) | hexception
  · simp only [List.mem_cons, List.not_mem_nil, or_false] at hown
    rcases hown with rfl | rfl | rfl | rfl <;> exact ⟨trivial, trivial, rfl⟩
  · obtain ⟨key, -, value, -, rfl⟩ := mem_extraMembers hextra
    exact ⟨trivial, scalar_json value⟩
  · obtain ⟨exception, -, rfl⟩ := List.mem_map.mp hexception
    exact ⟨trivial, trivial, rfl⟩

theorem plain_payload (timestamp : String) (record : LogRecord) :
    (formatter.payload timestamp record).Plain (fun _ => True) ∧
    (formatter.payload timestamp record).depth ≤ 1 := by
  refine ⟨⟨members_nodup timestamp record, membersPlain_iff.mpr fun member hmember => ?_⟩, ?_⟩
  · obtain ⟨hkey, hvalue, -⟩ := scalar_members hmember
    exact ⟨hkey, hvalue⟩
  · apply Nat.succ_le_succ
    apply membersDepth_le_iff.mpr
    intro member hmember
    obtain ⟨-, -, hdepth⟩ := scalar_members hmember
    omega

theorem lookup_members (timestamp : String) (record : LogRecord) (key : String) :
    lookup key (formatter.members timestamp record) = field timestamp record key := by
  have hextra : lookup key (formatter.extraMembers record) =
      if key ∈ allowedExtraKeys then (record.extra.lookup key).map ExtraValue.json else none := by
    have hkeys : key ∈ formatter.keys ↔ key ∈ allowedExtraKeys := formatter.keys_perm.mem_iff
    have hmembers := lookup_filterMap (fun key => (record.extra.lookup key).map ExtraValue.json)
        formatter.keys key
    simp only [Option.map_map, hkeys] at hmembers
    exact hmembers
  rw [members, lookup_append, lookup_append, hextra]
  unfold field
  by_cases htimestamp : key = "timestamp"
  · simp [lookup, htimestamp]
  by_cases hlevel : key = "level"
  · simp [lookup, hlevel]
  by_cases hlogger : key = "logger"
  · simp [lookup, hlogger]
  by_cases hmessage : key = "message"
  · simp [lookup, hmessage]
  rw [lookup, List.find?_eq_none.mpr
    (by simp [Ne.symm htimestamp, Ne.symm hlevel, Ne.symm hlogger, Ne.symm hmessage]),
    Option.map_none, Option.none_or, if_neg htimestamp, if_neg hlevel, if_neg hlogger,
      if_neg hmessage]
  by_cases hexception : key = "exception"
  · have hnot : key ∉ allowedExtraKeys := by
      subst hexception
      decide
    rw [if_neg hnot, if_pos hexception, Option.none_or]
    cases hrecord : record.exception <;> simp [lookup, exceptionMembers, hrecord, hexception]
  · have hmembers : lookup key (exceptionMembers record) = none := by
      cases hrecord : record.exception <;>
        simp [lookup, exceptionMembers, hrecord, Ne.symm hexception]
    rw [hmembers, Option.or_none, if_neg hexception]

/-- **The stream is read back**, by every reader of JSON that reads integers and one object: there
is a line for every record, and its object has the fields of the record, each key once. -/
theorem stream_read {ε : Type} (formatter : JsonFormatter) (reader : Reader Int ε)
    (hconvert : ∀ n, reader.convert (.lexeme (Reader.intLexeme n)) = .ok n)
    (hlimit : 1 ≤ reader.limit) (emitted : List (String × LogRecord)) :
    ∃ objects : List (List (Str × Value Int)),
      (streamLines (formatter.stream emitted)).map reader.read =
        objects.map (fun members => .ok (.object members)) ∧
      List.Forall₂ (fun members entry => (members.map (·.1)).Nodup ∧
        ∀ key, lookup key members = field entry.1 entry.2 key) objects emitted := by
  have hfollows : reader.Follows (asciiStyle [' ']) (fun _ => True) :=
    Reader.follows_of_integers (by simp [asciiStyle, Json.isBlank]) rfl fun n _ =>
      ⟨n, rfl, hconvert n⟩
  refine ⟨emitted.map fun entry => formatter.members entry.1 entry.2, ?_, ?_⟩
  · rw [stream_eq, Reader.read_stream hfollows (asciiStyle_oneLine (by decide))]
    · rw [List.map_map, List.map_map]
      rfl
    · intro value hvalue
      obtain ⟨entry, -, rfl⟩ := List.mem_map.mp hvalue
      obtain ⟨hplain, hdepth⟩ := @plain_payload formatter entry.1 entry.2
      exact ⟨hplain, hdepth.trans hlimit⟩
  · rw [List.forall₂_map_left_iff]
    apply List.forall₂_same.mpr
    intro entry _
    exact ⟨members_nodup entry.1 entry.2, lookup_members entry.1 entry.2⟩

end JsonFormatter

namespace Scenario

def integers : Reader Int Unit where
  convert
    | .lexeme l => .ok l.toInt
    | _ => .error ()
  limit := 1
  malformed := ()
  tooDeep := ()

def formatter : JsonFormatter where
  keys := JsonFormatter.allowedExtraKeys
  keys_perm := .refl _

/-- A message that ends its line and writes another one, of an error; and a record with a status
code. -/
def emitted : List (String × LogRecord) :=
  [("t1", { levelname := "INFO", message := "a\"\x7d\n\x7b\"level\": \"ERROR" }),
    ("t2", { levelname := "INFO", message := "b", extra := [("status_code", .int 200), ("prompt", .text "secret")] })]

/-- Both records are found, and nothing else. -/
theorem forged_line_kept : ∃ objects : List (List (Str × Value Int)),
    (streamLines (formatter.stream emitted)).map integers.read =
      objects.map (fun members => .ok (.object members)) ∧
    List.Forall₂ (fun members entry => (members.map (·.1)).Nodup ∧
      ∀ key, lookup key members = JsonFormatter.field entry.1 entry.2 key) objects emitted :=
  JsonFormatter.stream_read formatter integers (fun n => congrArg Except.ok (toInt_intLexeme n))
    (by decide) emitted

end Scenario

end ModelRouter
