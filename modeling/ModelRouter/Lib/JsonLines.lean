import ModelRouter.Lib.JsonReader

/-!
# Streams of JSON lines

Values that are written one after the other, each with a line feed behind it. Where no written value
has a line feed in it (`Style.OneLine`), a reader of the stream finds the lines as they were written
(`streamLines_stream`) and reads the values back from them (`read_stream`).
-/

namespace Json

/-- The lines of a stream, without what follows the last line feed. -/
def streamLines (text : String) : List String :=
  ((text.toList.splitOn '\n').dropLast).map String.ofList

theorem splitOn_lines {c : Char} {lines : List (List Char)} (h : ∀ line ∈ lines, c ∉ line) :
    (lines.flatMap fun line => line ++ [c]).splitOn c = lines ++ [[]] := by
  induction lines with
  | nil => simp
  | cons line lines ih =>
      have hline : c ∉ line := h line List.mem_cons_self
      have hlines := ih fun other hother => h other (List.mem_cons_of_mem _ hother)
      simp only [List.flatMap_cons, List.append_assoc, List.singleton_append]
      rw [List.splitOn_append_cons_self_of_not_mem hline, hlines]
      rfl

namespace Style

variable {ν : Type} (style : Style ν)

/-- What is written of the values, one after the other. -/
def stream (values : List (Value ν)) : String :=
  String.ofList (values.flatMap fun value => style.write value ++ ['\n'])

structure OneLine : Prop where
  gap : '\n' ∉ style.gap
  escape : ∀ c, '\n' ∉ style.escape c
  number : ∀ n, '\n' ∉ style.number n

variable {style}

theorem OneLine.writeString (h : style.OneLine) (s : Str) : '\n' ∉ style.writeString s := by
  have hchars : '\n' ∉ s.codePoints.flatMap style.escape := by
    intro hmem
    obtain ⟨c, -, hc⟩ := List.mem_flatMap.mp hmem
    exact h.escape c hc
  simp [Style.writeString, hchars]

theorem OneLine.separator (h : style.OneLine) (first : Bool) :
    '\n' ∉ Value.separator style.gap first := by
  cases first <;> simp [Value.separator, h.gap]

mutual

theorem OneLine.write (h : style.OneLine) (v : Value ν) : '\n' ∉ style.write v := by
  cases v with
  | null => simp [Style.write]
  | bool b => cases b <;> simp [Style.write]
  | number n => exact h.number n
  | string s => exact h.writeString s
  | array items => simpa [Style.write] using OneLine.writeItems h true items
  | object members => simpa [Style.write] using OneLine.writeMembers h true members

theorem OneLine.writeItems (h : style.OneLine) (first : Bool) (items : List (Value ν)) :
    '\n' ∉ style.writeItems first items := by
  cases items with
  | nil => simp [Style.writeItems]
  | cons item items =>
      have hitem := OneLine.write h item
      have hitems := OneLine.writeItems h false items
      simp [Style.writeItems, h.separator, hitem, hitems]

theorem OneLine.writeMembers (h : style.OneLine) (first : Bool) (members : List (Str × Value ν)) :
    '\n' ∉ style.writeMembers first members := by
  cases members with
  | nil => simp [Style.writeMembers]
  | cons member members =>
      obtain ⟨key, value⟩ := member
      have hvalue := OneLine.write h value
      have hmembers := OneLine.writeMembers h false members
      simp [Style.writeMembers, h.separator, h.gap, h.writeString, hvalue, hmembers]

end

theorem streamLines_stream (h : style.OneLine) (values : List (Value ν)) :
    streamLines (style.stream values) = values.map style.text := by
  have hlines : ∀ line ∈ values.map style.write, '\n' ∉ line := by
    intro line hline
    obtain ⟨value, -, rfl⟩ := List.mem_map.mp hline
    exact h.write value
  have hsplit := splitOn_lines hlines
  rw [List.flatMap_map] at hsplit
  rw [streamLines, stream, String.toList_ofList, hsplit, List.dropLast_concat, List.map_map]
  rfl

end Style

/-- **The values of a stream are read back from its lines.** -/
theorem Reader.read_stream {ν ε : Type} {reader : Reader ν ε} {style : Style ν} {P : ν → Prop}
    (hfollows : reader.Follows style P) (h : style.OneLine) {values : List (Value ν)}
    (hvalues : ∀ value ∈ values, value.Plain P ∧ value.depth ≤ reader.limit) :
    (streamLines (style.stream values)).map reader.read = values.map .ok := by
  rw [Style.streamLines_stream h, List.map_map]
  apply List.map_congr_left
  intro value hvalue
  obtain ⟨hplain, hdepth⟩ := hvalues value hvalue
  exact read_write hfollows hplain hdepth

/-! ## Objects of members -/

theorem membersPlain_iff {ν : Type} {P : ν → Prop} {members : List (Str × Value ν)} :
    Value.MembersPlain P members ↔ ∀ member ∈ members, member.1.IsText ∧ member.2.Plain P := by
  induction members with
  | nil => simp [Value.MembersPlain]
  | cons member members ih => simp [Value.MembersPlain, ih, and_assoc]

theorem membersDepth_le_iff {ν : Type} {n : Nat} {members : List (Str × Value ν)} :
    Value.membersDepth members ≤ n ↔ ∀ member ∈ members, member.2.depth ≤ n := by
  induction members with
  | nil => simp [Value.membersDepth]
  | cons member members ih => simp [Value.membersDepth, ih]

theorem lookup_append {α : Type} (key : String) (members others : List (Str × α)) :
    lookup key (members ++ others) = (lookup key members).or (lookup key others) := by
  unfold lookup
  rw [List.find?_append]
  cases List.find? (fun member => member.1 = .text key) members <;> rfl

/-- Members that are made for some of the keys. -/
theorem lookup_filterMap {α : Type} (f : String → Option α) (keys : List String) (key : String) :
    lookup key (keys.filterMap fun name => (f name).map fun value => (.text name, value)) =
      if key ∈ keys then f key else none := by
  induction keys with
  | nil => rfl
  | cons name keys ih =>
      by_cases hname : name = key
      · subst hname
        cases hvalue : f name with
        | none => simp [hvalue, ih]
        | some value => simp [hvalue, lookup]
      · have hmem : key ∈ name :: keys ↔ key ∈ keys := by simp [Ne.symm hname]
        simp only [hmem, ← ih]
        cases hvalue : f name with
        | none => simp [hvalue]
        | some value => simp [hvalue, lookup, hname]

/-! ## What `json.dumps` writes -/

theorem hexDigit_ne_newline (n : Nat) : hexDigit n ≠ '\n' := by
  have hall : ∀ d < 16, Nat.digitChar d ≠ '\n' := by decide
  exact hall (n % 16) (Nat.mod_lt _ (by decide))

theorem unicodeEscape_oneLine (n : Nat) : '\n' ∉ unicodeEscape n := by
  simp [unicodeEscape, hexDigits, (hexDigit_ne_newline _).symm]

theorem escape_oneLine (c : Nat) : '\n' ∉ escape c := by
  unfold escape
  split
  · rename_i entry hentry
    have hall : ∀ entry ∈ shortEscapes, '\n' ∉ ['\\', entry.2] := by decide
    exact hall entry (List.mem_of_find?_eq_some hentry)
  · split
    · rename_i hprintable
      intro hmem
      have hvalid : c.isValidChar := Or.inl (by omega)
      have hcode : 10 = (Char.ofNat c).toNat := congrArg Char.toNat (List.mem_singleton.mp hmem)
      rw [Char.ofNat, dif_pos hvalid] at hcode
      have hchar : (Char.ofNatAux c hvalid).toNat = c := rfl
      omega
    · split
      · exact unicodeEscape_oneLine c
      · simp [unicodeEscape_oneLine]

theorem writeInt_oneLine (n : Int) : '\n' ∉ writeInt n := by
  have hdigits (n : Nat) : '\n' ∉ Nat.toDigits 10 n := by
    intro hmem
    have hdigit := @Nat.isDigit_of_mem_toDigits 10 n '\n' (by decide) (by decide) hmem
    cases hdigit
  cases n with
  | ofNat n => exact hdigits n
  | negSucc n => simp [writeInt, hdigits]

theorem asciiStyle_oneLine {gap : List Char} (h : '\n' ∉ gap) : (asciiStyle gap).OneLine where
  gap := h
  escape := escape_oneLine
  number := writeInt_oneLine

end Json
