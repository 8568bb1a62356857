import ModelRouter.Lib.JsonText

/-!
# Reading the text of a JSON value

`Reader.read` is `json.loads`: a machine with a stack that takes one character after the other.
Numbers are converted where they end, objects are dictionaries, and what nests deeper than the limit
is an error where it begins.

* `Style` : a way to write values, with its blanks, its escapes and its numbers; `ascii` is the one
  of `json.dumps`;
* `run_write` : the machine takes a written value as one step;
* `read_write` : a written value is read back, if its strings are texts and its objects have
  different keys.
-/

namespace Json

/-- The string of a sequence of code points. -/
def Str.ofCodePoints (codePoints : List Nat) : Str :=
  if codePoints.all fun c => c.isValidChar then .text (String.ofList (codePoints.map Char.ofNat))
  else .surrogates codePoints

theorem Str.ofCodePoints_text (s : String) :
    Str.ofCodePoints (s.toList.map Char.toNat) = .text s := by
  have hvalid : (s.toList.map Char.toNat).all (fun c => c.isValidChar) = true := by
    rw [List.all_eq_true]
    intro c hc
    obtain ⟨char, -, rfl⟩ := List.mem_map.mp hc
    exact decide_eq_true char.valid
  rw [ofCodePoints, if_pos hvalid, List.map_map]
  have hid : Char.ofNat ∘ Char.toNat = id := funext Char.ofNat_toNat
  rw [hid, List.map_id, String.ofList_toList]

/-! ## Numbers -/

/-- A number as it is written, by its digits. -/
structure Lexeme where
  negative : Bool := false
  whole : List Char := []
  fraction : List Char := []
  exponentNegative : Bool := false
  exponent : List Char := []
deriving DecidableEq

/-- `NaN` and `Infinity` are written where a number may stand. -/
inductive Numeral where
  | lexeme (l : Lexeme)
  | nan
  | infinity (negative : Bool)

/-- How far a number has been read. -/
inductive NumberPhase where
  | minus | zero | whole | point | fraction | e | sign (negative : Bool) | exponent
deriving DecidableEq

/-- The number with one more character, if it goes on. -/
def continueNumber : NumberPhase → Lexeme → Char → Option (NumberPhase × Lexeme)
  | .minus, l, c =>
    if c = '0' then some (.zero, { l with whole := ['0'] })
    else if c.isDigit then some (.whole, { l with whole := [c] }) else none
  | .zero, l, c =>
      if c = '.' then some (.point, l) else if c = 'e' ∨ c = 'E' then some (.e, l) else none
  | .whole, l, c =>
    if c.isDigit then some (.whole, { l with whole := l.whole ++ [c] })
    else if c = '.' then some (.point, l) else if c = 'e' ∨ c = 'E' then some (.e, l) else none
  | .point, l, c => if c.isDigit then some (.fraction, { l with fraction := [c] }) else none
  | .fraction, l, c =>
    if c.isDigit then some (.fraction, { l with fraction := l.fraction ++ [c] })
    else if c = 'e' ∨ c = 'E' then some (.e, l) else none
  | .e, l, c =>
    if c.isDigit then some (.exponent, { l with exponent := [c] })
    else if c = '+' ∨ c = '-' then some (.sign (c = '-'), l) else none
  | .sign negative, l, c =>
    if c.isDigit then some (.exponent, { l with exponentNegative := negative, exponent := [c] })
      else none
  | .exponent, l, c =>
      if c.isDigit then some (.exponent, { l with exponent := l.exponent ++ [c] }) else none

/-! ## The machine -/

/-- How numbers are converted, how deep values may nest, and the errors. -/
structure Reader (ν ε : Type) where
  convert : Numeral → Except ε ν
  limit : Nat
  malformed : ε
  tooDeep : ε

/-- An array or an object that has been opened, with what it has so far; the value of the last key
is being read. -/
inductive Frame (ν : Type) where
  | array (items : List (Value ν))
  | object (members : List (Str × Value ν))
  | member (members : List (Str × Value ν)) (key : Str)

inductive Word where
  | null | true | false | nan | infinity (negative : Bool)

/-- A string is read for a key or for a value. -/
inductive Purpose where
  | key | value

inductive Mode (ν : Type) where
  /-- A value is expected; where it may be the `first` of an array, the array may end. -/
  | value (first : Bool)
  | key (first : Bool)
  | colon
  | string (purpose : Purpose) (codePoints : List Nat)
  | escape (purpose : Purpose) (codePoints : List Nat)
  | unicode (purpose : Purpose) (codePoints : List Nat) (digits : List Nat)
  | word (rest : List Char) (word : Word)
  | number (phase : NumberPhase) (l : Lexeme)
  | after (value : Value ν)

structure State (ν : Type) where
  stack : List (Frame ν) := []
  mode : Mode ν := .value false

def isBlank (c : Char) : Bool := c = ' ' || c = '\t' || c = '\n' || c = '\r'

/-- A hexadecimal digit of either case. -/
def hexOf (c : Char) : Option Nat :=
  if c.isDigit then some (c.toNat - 48)
  else if 'a' ≤ c ∧ c ≤ 'f' then some (c.toNat - 87)
  else if 'A' ≤ c ∧ c ≤ 'F' then some (c.toNat - 55)
  else none

/-- The code points with one more; the halves of a pair are joined. -/
def pushUnit (codePoints : List Nat) (unit : Nat) : List Nat :=
  match codePoints.getLast? with
  | some high =>
    if 0xd800 ≤ high ∧ high < 0xdc00 ∧ 0xdc00 ≤ unit ∧ unit < 0xe000 then
      codePoints.dropLast ++ [0x10000 + (high - 0xd800) * 1024 + (unit - 0xdc00)]
    else codePoints ++ [unit]
  | none => codePoints ++ [unit]

/-- The code point of an escape with one letter. -/
def shortEscape (c : Char) : Option Nat :=
  if c = '/' then some 0x2f else (shortEscapes.find? (·.2 = c)).map (·.1)

namespace Reader

variable {ν ε : Type} (reader : Reader ν ε)

def wordValue : Word → Except ε (Value ν)
  | .null => .ok .null
  | .true => .ok (.bool true)
  | .false => .ok (.bool false)
  | .nan => (reader.convert .nan).map .number
  | .infinity negative => (reader.convert (.infinity negative)).map .number

/-- The number that has been read; where a point or an exponent has begun, the number ends before
it. -/
def endNumber (phase : NumberPhase) (l : Lexeme) : Except ε (Value ν) :=
  match phase with
  | .minus => .error reader.malformed
  | .zero | .whole | .fraction | .exponent => (reader.convert (.lexeme l)).map .number
  | .point | .e | .sign _ => do
    let _ ← reader.convert (.lexeme l)
    .error reader.malformed

def «open» (stack : List (Frame ν)) (frame : Frame ν) (mode : Mode ν) : Except ε (State ν) :=
  if stack.length < reader.limit then .ok { stack := frame :: stack, mode }
    else .error reader.tooDeep

/-- The first character of a value. -/
def begin (stack : List (Frame ν)) (c : Char) : Except ε (State ν) :=
  match c with
  | '"' => .ok { stack, mode := .string .value [] }
  | '[' => reader.open stack (.array []) (.value true)
  | '\x7b' => reader.open stack (.object []) (.key true)
  | 'n' => .ok { stack, mode := .word "ull".toList .null }
  | 't' => .ok { stack, mode := .word "rue".toList .true }
  | 'f' => .ok { stack, mode := .word "alse".toList .false }
  | 'N' => .ok { stack, mode := .word "aN".toList .nan }
  | 'I' => .ok { stack, mode := .word "nfinity".toList (.infinity false) }
  | '-' => .ok { stack, mode := .number .minus { negative := true } }
  | c => match continueNumber .minus {} c with
    | some (phase, l) => .ok { stack, mode := .number phase l }
    | none => .error reader.malformed

/-- The character after a value. -/
def follow (stack : List (Frame ν)) (value : Value ν) (c : Char) : Except ε (State ν) :=
  if isBlank c then .ok { stack, mode := .after value }
  else match stack, c with
  | .array items :: stack, ',' =>
      .ok { stack := .array (items ++ [value]) :: stack, mode := .value false }
  | .array items :: stack, ']' => .ok { stack, mode := .after (.array (items ++ [value])) }
  | .member members key :: stack, ',' =>
      .ok { stack := .object (members ++ [(key, value)]) :: stack, mode := .key false }
  | .member members key :: stack, '\x7d' =>
      .ok { stack, mode := .after (.object (dict (members ++ [(key, value)]))) }
  | _, _ => .error reader.malformed

/-- A string that ends. -/
def endString (stack : List (Frame ν)) (purpose : Purpose) (s : Str) : Except ε (State ν) :=
  match purpose, stack with
  | .value, stack => .ok { stack, mode := .after (.string s) }
  | .key, .object members :: stack => .ok { stack := .member members s :: stack, mode := .colon }
  | .key, _ => .error reader.malformed

def step (s : State ν) (c : Char) : Except ε (State ν) :=
  match s.mode with
  | .value first =>
    if isBlank c then .ok s
    else match first, s.stack, c with
    | true, .array [] :: stack, ']' => .ok { stack, mode := .after (.array []) }
    | _, stack, c => reader.begin stack c
  | .key first =>
    if isBlank c then .ok s
    else match first, s.stack, c with
    | _, stack, '"' => .ok { stack, mode := .string .key [] }
    | true, .object [] :: stack, '\x7d' => .ok { stack, mode := .after (.object []) }
    | _, _, _ => .error reader.malformed
  | .colon =>
    if isBlank c then .ok s else if c = ':' then .ok { s with mode := .value false }
      else .error reader.malformed
  | .string purpose codePoints =>
    if c = '"' then reader.endString s.stack purpose (Str.ofCodePoints codePoints)
    else if c = '\\' then .ok { s with mode := .escape purpose codePoints }
    else if c.toNat < 0x20 then .error reader.malformed
    else .ok { s with mode := .string purpose (codePoints ++ [c.toNat]) }
  | .escape purpose codePoints =>
    if c = 'u' then .ok { s with mode := .unicode purpose codePoints [] }
    else match shortEscape c with
    | some codePoint => .ok { s with mode := .string purpose (codePoints ++ [codePoint]) }
    | none => .error reader.malformed
  | .unicode purpose codePoints digits =>
    match hexOf c, digits with
    | some d, [a, b, c] =>
      .ok { s with mode := .string purpose (pushUnit codePoints (4096 * a + 256 * b + 16 * c + d)) }
    | some d, digits => .ok { s with mode := .unicode purpose codePoints (digits ++ [d]) }
    | none, _ => .error reader.malformed
  | .word rest word =>
    match rest with
    | [c'] => if c = c' then (reader.wordValue word).map fun value => { s with mode := .after value }
      else .error reader.malformed
    | c' :: rest =>
        if c = c' then .ok { s with mode := .word rest word } else .error reader.malformed
    | [] => .error reader.malformed
  | .number phase l =>
    match continueNumber phase l c with
    | some (phase, l) => .ok { s with mode := .number phase l }
    | none =>
      if phase = .minus ∧ c = 'I'
        then .ok { s with mode := .word "nfinity".toList (.infinity true) }
      else do
        let value ← reader.endNumber phase l
        reader.follow s.stack value c
  | .after value => reader.follow s.stack value c

/-- The end of the text. -/
def finish (s : State ν) : Except ε (Value ν) :=
  match s.stack, s.mode with
  | [], .after value => .ok value
  | [], .number phase l => reader.endNumber phase l
  | _, .number phase l => do
    let _ ← reader.endNumber phase l
    .error reader.malformed
  | _, _ => .error reader.malformed

def run : List Char → State ν → Except ε (Value ν)
  | [], s => reader.finish s
  | c :: text, s => do
    let s ← reader.step s c
    run text s

/-- `json.loads` -/
def read (text : String) : Except ε (Value ν) := reader.run text.toList {}

end Reader

/-! ## Dictionaries -/

theorem insert_of_not_mem {α : Type} {key : Str} {value : α} {entries : List (Str × α)}
    (h : key ∉ entries.map (·.1)) : insert key value entries = entries ++ [(key, value)] := by
  induction entries with
  | nil => rfl
  | cons entry entries ih =>
      rw [List.map_cons, List.mem_cons, not_or] at h
      rw [insert, if_neg (Ne.symm h.1), ih h.2]
      rfl

/-- Members with different keys are a dictionary. -/
theorem dict_of_nodup {α : Type} {members : List (Str × α)} (h : (members.map (·.1)).Nodup) :
    dict members = members := by
  have hfold : ∀ (members entries : List (Str × α)), ((entries ++ members).map (·.1)).Nodup →
      members.foldl (fun entries member => insert member.1 member.2 entries) entries = entries ++
        members := by
    intro members
    induction members with
    | nil => simp
    | cons member members ih =>
        intro entries hnodup
        have hnew : member.1 ∉ entries.map (·.1) := by
          rw [List.map_append, List.map_cons] at hnodup
          exact fun hmem => (List.nodup_append.mp hnodup).2.2 _ hmem _ List.mem_cons_self rfl
        rw [List.foldl_cons, insert_of_not_mem hnew, ih _ (by simpa using hnodup),
          List.append_assoc]
        rfl
  exact hfold members [] h

/-! ## Writing -/

/-- How values are written: `gap` follows every comma and every colon. -/
structure Style (ν : Type) where
  gap : List Char := []
  escape : Nat → List Char
  number : ν → List Char

namespace Style

variable {ν : Type} (style : Style ν)

def writeString (s : Str) : List Char := '"' :: (s.codePoints.flatMap style.escape ++ ['"'])

mutual

def write : Value ν → List Char
  | .null => "null".toList
  | .bool true => "true".toList
  | .bool false => "false".toList
  | .number n => style.number n
  | .string s => style.writeString s
  | .array items => '[' :: writeItems true items
  | .object members => '\x7b' :: writeMembers true members

/-- The items, and the bracket that closes them. -/
def writeItems (first : Bool) : List (Value ν) → List Char
  | [] => [']']
  | item :: items => Value.separator style.gap first ++ (write item ++ writeItems false items)

def writeMembers (first : Bool) : List (Str × Value ν) → List Char
  | [] => ['\x7d']
  | (key, value) :: members =>
    Value.separator style.gap first ++
      (style.writeString key ++ (':' :: style.gap ++ (write value ++ writeMembers false members)))

end

def text (v : Value ν) : String := String.ofList (style.write v)

end Style

/-- What `json.dumps` writes of a number that is an integer. -/
def asciiStyle (gap : List Char) : Style Int where
  gap := gap
  escape := escape
  number := writeInt

mutual

theorem write_ascii (gap : List Char) (v : Value Int) : (asciiStyle gap).write v = v.write gap := by
  cases v with
  | null => rfl
  | bool b => cases b <;> rfl
  | number n => rfl
  | string s => rfl
  | array items => exact congrArg ('[' :: ·) (writeItems_ascii gap true items)
  | object members => exact congrArg ('\x7b' :: ·) (writeMembers_ascii gap true members)

theorem writeItems_ascii (gap : List Char) (first : Bool) (items : List (Value Int)) :
    (asciiStyle gap).writeItems first items = Value.writeItems gap first items := by
  cases items with
  | nil => rfl
  | cons item items =>
      rw [Style.writeItems, Value.writeItems, write_ascii gap item,
        writeItems_ascii gap false items]
      rfl

theorem writeMembers_ascii (gap : List Char) (first : Bool) (members : List (Str × Value Int)) :
    (asciiStyle gap).writeMembers first members = Value.writeMembers gap first members := by
  cases members with
  | nil => rfl
  | cons member members =>
      obtain ⟨key, value⟩ := member
      rw [Style.writeMembers, Value.writeMembers, write_ascii gap value,
        writeMembers_ascii gap false members]
      rfl

end

/-! ## Reading what is written -/

mutual

/-- Numbers are in `P`, strings and keys are texts, and an object has different keys. -/
def Value.Plain {ν : Type} (P : ν → Prop) : Value ν → Prop
  | .number n => P n
  | .string s => s.IsText
  | .array items => ItemsPlain P items
  | .object members => (members.map (·.1)).Nodup ∧ MembersPlain P members
  | _ => True

def Value.ItemsPlain {ν : Type} (P : ν → Prop) : List (Value ν) → Prop
  | [] => True
  | item :: items => item.Plain P ∧ ItemsPlain P items

def Value.MembersPlain {ν : Type} (P : ν → Prop) : List (Str × Value ν) → Prop
  | [] => True
  | (key, value) :: members => key.IsText ∧ value.Plain P ∧ MembersPlain P members

end

/-- No number goes on here: the text ends, or an item, an array or an object does. -/
def Ends (text : List Char) : Prop := ∀ c ∈ text.head?, c = ',' ∨ c = ']' ∨ c = '\x7d'

/-- The machine takes a written code point, and a written number in `P`, as one step. -/
structure Reader.Follows {ν ε : Type} (reader : Reader ν ε) (style : Style ν) (P : ν → Prop) :
    Prop where
  gap : ∀ c ∈ style.gap, isBlank c = true
  escape : ∀ c, c.isValidChar → ∀ stack purpose codePoints text, (∀ c ∈ codePoints, c.isValidChar) →
    reader.run (style.escape c ++ text) ⟨stack, .string purpose codePoints⟩ =
      reader.run text ⟨stack, .string purpose (codePoints ++ [c])⟩
  number : ∀ n, P n → ∀ stack first text, Ends text →
    reader.run (style.number n ++ text) ⟨stack, .value first⟩ =
      reader.run text ⟨stack, .after (.number n)⟩

namespace Reader

variable {ν ε : Type} {reader : Reader ν ε} {style : Style ν} {P : ν → Prop}
  {stack : List (Frame ν)} {text : List Char}

theorem run_cons {s s' : State ν} {c : Char} (h : reader.step s c = .ok s') :
    reader.run (c :: text) s = reader.run text s' := by
  rw [run, h]
  rfl

/-- Blanks are passed over where the machine stays. -/
theorem run_gap {gap : List Char} (h : ∀ c ∈ gap, isBlank c = true) {s : State ν}
    (hstay : ∀ c, isBlank c = true → reader.step s c = .ok s) :
      reader.run (gap ++ text) s = reader.run text s := by
  induction gap with
  | nil => rfl
  | cons c gap ih =>
      rw [List.cons_append, run_cons (hstay c (h c List.mem_cons_self))]
      exact ih fun c' hc' => h c' (List.mem_cons_of_mem _ hc')

theorem stay_value (first : Bool) (c : Char) (h : isBlank c = true) :
    reader.step ⟨stack, .value first⟩ c = .ok ⟨stack, .value first⟩ := if_pos h

theorem stay_key (first : Bool) (c : Char) (h : isBlank c = true) :
    reader.step ⟨stack, .key first⟩ c = .ok ⟨stack, .key first⟩ := if_pos h

theorem step_value {c : Char} (hblank : isBlank c = false) (hbracket : c ≠ ']') (first : Bool) :
    reader.step ⟨stack, .value first⟩ c = reader.begin stack c := by
  simp only [step, hblank, Bool.false_eq_true, if_false]
  split
  · exact absurd rfl hbracket
  · rfl

theorem step_quote (purpose : Purpose) (codePoints : List Nat) :
    reader.step ⟨stack, .string purpose codePoints⟩ '"' =
      reader.endString stack purpose (Str.ofCodePoints codePoints) := by
  simp [step]

variable (hfollows : reader.Follows style P)
include hfollows

theorem run_codePoints {purpose : Purpose} {codePoints : List Nat}
    (h : ∀ c ∈ codePoints, c.isValidChar) {past : List Nat} (hpast : ∀ c ∈ past, c.isValidChar) :
    reader.run (codePoints.flatMap style.escape ++ text) ⟨stack, .string purpose past⟩ =
      reader.run text ⟨stack, .string purpose (past ++ codePoints)⟩ := by
  induction codePoints generalizing past with
  | nil => rw [List.flatMap_nil, List.nil_append, List.append_nil]
  | cons c codePoints ih =>
      have hc := h c List.mem_cons_self
      have hpast' : ∀ c' ∈ past ++ [c], c'.isValidChar := by
        intro c' hc'
        rcases List.mem_append.mp hc' with hc' | hc'
        · exact hpast c' hc'
        · rw [List.mem_singleton.mp hc']
          exact hc
      rw [List.flatMap_cons, List.append_assoc, hfollows.escape c hc _ _ _ _ hpast,
        ih (fun c' hc' => h c' (List.mem_cons_of_mem _ hc')) hpast', List.append_assoc,
          List.singleton_append]

/-- A written string is read up to its last quote. -/
theorem run_string {s : Str} (h : s.IsText) (stack : List (Frame ν)) (purpose : Purpose)
    (text : List Char) :
    ∃ codePoints, Str.ofCodePoints codePoints = s ∧
      reader.run (s.codePoints.flatMap style.escape ++ '"' :: text) ⟨stack, .string purpose []⟩ =
        reader.run ('"' :: text) ⟨stack, .string purpose codePoints⟩ := by
  cases s with
  | surrogates codePoints => exact h.elim
  | text s =>
      have hvalid : ∀ c ∈ s.toList.map Char.toNat, c.isValidChar := by
        intro c hc
        obtain ⟨char, -, rfl⟩ := List.mem_map.mp hc
        exact char.valid
      refine ⟨_, Str.ofCodePoints_text s, ?_⟩
      exact run_codePoints hfollows hvalid (by simp)

theorem run_key {members : List (Str × Value ν)} {first : Bool} {key : Str} (h : key.IsText) :
    reader.run (style.writeString key ++ (':' :: style.gap ++ text)) ⟨.object members :: stack,
      .key first⟩ =
      reader.run text ⟨.member members key :: stack, .value false⟩ := by
  have hquote : reader.step ⟨.object members :: stack, .key first⟩ '"' =
      .ok ⟨.object members :: stack, .string .key []⟩ := by cases first <;> rfl
  obtain ⟨codePoints, hkey, hrun⟩ :=
    run_string hfollows h (.object members :: stack) .key (':' :: style.gap ++ text)
  have hend : reader.step ⟨.object members :: stack, .string .key codePoints⟩ '"' =
      .ok ⟨.member members key :: stack, .colon⟩ := by
    rw [step_quote, hkey]
    rfl
  have hcolon : reader.step ⟨.member members key :: stack, .colon⟩ ':' =
      .ok ⟨.member members key :: stack, .value false⟩ := rfl
  rw [Style.writeString, List.cons_append, List.append_assoc, List.singleton_append,
    run_cons hquote, hrun,
    run_cons hend, List.cons_append, run_cons hcolon, run_gap hfollows.gap (stay_value false)]

omit hfollows in
/-- A word is read to its end. -/
theorem run_word {rest : List Char} {word : Word} {value : Value ν} (hne : rest ≠ [])
    (h : reader.wordValue word = .ok value) :
    reader.run (rest ++ text) ⟨stack, .word rest word⟩ = reader.run text ⟨stack, .after value⟩ := by
  induction rest with
  | nil => exact absurd rfl hne
  | cons c rest ih =>
      cases rest with
      | nil =>
          have hstep : reader.step ⟨stack, .word [c] word⟩ c = .ok ⟨stack, .after value⟩ := by
            simp [step, h, Except.map]
          exact run_cons hstep
      | cons c' rest =>
          have hstep : reader.step ⟨stack, .word (c :: c' :: rest) word⟩ c =
              .ok ⟨stack, .word (c' :: rest) word⟩ :=
            if_pos rfl
          rw [List.cons_append, run_cons hstep]
          exact ih (by simp)

omit hfollows in
theorem ends_items (items : List (Value ν)) (text : List Char) :
    Ends (style.writeItems false items ++ text) := by
  cases items <;> simp [Ends, Style.writeItems, Value.separator]

omit hfollows in
theorem ends_members (members : List (Str × Value ν)) (text : List Char) :
    Ends (style.writeMembers false members ++ text) := by
  rcases members with _ | ⟨⟨key, value⟩, members⟩ <;>
    simp [Ends, Style.writeMembers, Value.separator]

mutual

/-- **The machine takes a written value as one step.** -/
theorem run_write (v : Value ν) (hplain : v.Plain P) (stack : List (Frame ν)) (first : Bool)
    (text : List Char) (hdepth : stack.length + v.depth ≤ reader.limit) (hends : Ends text) :
    reader.run (style.write v ++ text) ⟨stack, .value first⟩ =
      reader.run text ⟨stack, .after v⟩ := by
  cases v with
  | null =>
      have hstep : reader.step ⟨stack, .value first⟩ 'n' = .ok ⟨stack, .word "ull".toList .null⟩ :=
        step_value (by decide) (by decide) first
      exact (run_cons hstep).trans (run_word (by decide) rfl)
  | bool b =>
      cases b with
      | true =>
          have hstep : reader.step ⟨stack, .value first⟩ 't' =
              .ok ⟨stack, .word "rue".toList .true⟩ :=
            step_value (by decide) (by decide) first
          exact (run_cons hstep).trans (run_word (by decide) rfl)
      | false =>
          have hstep : reader.step ⟨stack, .value first⟩ 'f' =
              .ok ⟨stack, .word "alse".toList .false⟩ :=
            step_value (by decide) (by decide) first
          exact (run_cons hstep).trans (run_word (by decide) rfl)
  | number n => exact hfollows.number n hplain stack first text hends
  | string s =>
      have hstep : reader.step ⟨stack, .value first⟩ '"' = .ok ⟨stack, .string .value []⟩ :=
        step_value (by decide) (by decide) first
      obtain ⟨codePoints, hs, hrun⟩ := run_string hfollows hplain stack .value text
      have hend : reader.step ⟨stack, .string .value codePoints⟩ '"' =
          .ok ⟨stack, .after (.string s)⟩ := by
        rw [step_quote, hs]
        rfl
      rw [Style.write, Style.writeString, List.cons_append, List.append_assoc,
        List.singleton_append, run_cons hstep,
        hrun, run_cons hend]
  | array items =>
      have hlimit : stack.length < reader.limit := by
        rw [Value.depth] at hdepth
        omega
      have hstep : reader.step ⟨stack, .value first⟩ '[' = .ok ⟨.array [] :: stack, .value true⟩ :=
        (step_value (by decide) (by decide) first).trans (if_pos hlimit)
      rw [Style.write, List.cons_append, run_cons hstep]
      cases items with
      | nil =>
          have hclose : reader.step ⟨.array [] :: stack, .value true⟩ ']' =
              .ok ⟨stack, .after (.array [])⟩ := rfl
          exact run_cons hclose
      | cons item items =>
          rw [Value.depth, Value.itemsDepth] at hdepth
          rw [Style.writeItems, List.append_assoc, List.append_assoc]
          refine (run_write item hplain.1 _ true _ (by simp; omega) (ends_items items text)).trans
            ?_
          exact run_moreItems items hplain.2 [] item stack text (by omega)
  | object members =>
      have hlimit : stack.length < reader.limit := by
        rw [Value.depth] at hdepth
        omega
      have hstep : reader.step ⟨stack, .value first⟩ '\x7b' =
          .ok ⟨.object [] :: stack, .key true⟩ :=
        (step_value (by decide) (by decide) first).trans (if_pos hlimit)
      rw [Style.write, List.cons_append, run_cons hstep]
      cases members with
      | nil =>
          have hclose : reader.step ⟨.object [] :: stack, .key true⟩ '\x7d' =
              .ok ⟨stack, .after (.object [])⟩ := rfl
          exact run_cons hclose
      | cons member members =>
          obtain ⟨key, value⟩ := member
          obtain ⟨hkeys, hkey, hvalue, hmembers⟩ := hplain
          rw [Value.depth, Value.membersDepth] at hdepth
          rw [Style.writeMembers, Value.separator, if_pos rfl, List.nil_append, List.append_assoc,
            List.append_assoc,
            run_key hfollows hkey, List.append_assoc]
          refine (run_write value hvalue _ false _ (by simp; omega)
            (ends_members members text)).trans ?_
          exact run_moreMembers members hmembers [] key value hkeys stack text (by omega)

/-- The items that follow one. -/
theorem run_moreItems (items : List (Value ν)) (hplain : Value.ItemsPlain P items)
    (past : List (Value ν)) (last : Value ν) (stack : List (Frame ν)) (text : List Char)
    (hdepth : stack.length + Value.itemsDepth items < reader.limit) :
    reader.run (style.writeItems false items ++ text) ⟨.array past :: stack, .after last⟩ =
      reader.run text ⟨stack, .after (.array (past ++ last :: items))⟩ := by
  cases items with
  | nil =>
      have hstep : reader.step ⟨.array past :: stack, .after last⟩ ']' =
          .ok ⟨stack, .after (.array (past ++ [last]))⟩ := rfl
      exact run_cons hstep
  | cons item items =>
      have hstep : reader.step ⟨.array past :: stack, .after last⟩ ',' =
          .ok ⟨.array (past ++ [last]) :: stack, .value false⟩ := rfl
      rw [Value.itemsDepth] at hdepth
      rw [Style.writeItems, Value.separator, if_neg Bool.false_ne_true, List.cons_append,
        List.cons_append, run_cons hstep,
        List.append_assoc, List.append_assoc, run_gap hfollows.gap (stay_value false)]
      refine (run_write item hplain.1 _ false _ (by simp; omega) (ends_items items text)).trans ?_
      rw [run_moreItems items hplain.2 (past ++ [last]) item stack text (by omega),
        List.append_assoc,
        List.singleton_append]

/-- The members that follow one. -/
theorem run_moreMembers (members : List (Str × Value ν)) (hplain : Value.MembersPlain P members)
    (past : List (Str × Value ν)) (key : Str) (last : Value ν)
    (hkeys : ((past ++ (key, last) :: members).map (·.1)).Nodup)
    (stack : List (Frame ν)) (text : List Char)
    (hdepth : stack.length + Value.membersDepth members < reader.limit) :
    reader.run (style.writeMembers false members ++ text) ⟨.member past key :: stack, .after last⟩ =
      reader.run text ⟨stack, .after (.object (past ++ (key, last) :: members))⟩ := by
  cases members with
  | nil =>
      have hstep : reader.step ⟨.member past key :: stack, .after last⟩ '\x7d' =
          .ok ⟨stack, .after (.object (dict (past ++ [(key, last)])))⟩ := rfl
      rw [dict_of_nodup hkeys] at hstep
      exact run_cons hstep
  | cons member members =>
      obtain ⟨key', value⟩ := member
      have hstep : reader.step ⟨.member past key :: stack, .after last⟩ ',' =
          .ok ⟨.object (past ++ [(key, last)]) :: stack, .key false⟩ := rfl
      have hsame : past ++ (key, last) :: (key', value) :: members = past ++ [(key, last)] ++
          (key', value) :: members := by
        rw [List.append_assoc, List.singleton_append]
      rw [hsame] at hkeys ⊢
      rw [Value.membersDepth] at hdepth
      rw [Style.writeMembers, Value.separator, if_neg Bool.false_ne_true, List.cons_append,
        List.cons_append,
        run_cons hstep, List.append_assoc, List.append_assoc, run_gap hfollows.gap (stay_key false),
          List.append_assoc,
        run_key hfollows hplain.1, List.append_assoc]
      refine (run_write value hplain.2.1 _ false _ (by simp; omega)
        (ends_members members text)).trans ?_
      exact run_moreMembers members hplain.2.2 (past ++ [(key, last)]) key' value hkeys stack text
        (by omega)

end

/-- **A written value is read back.** -/
theorem read_write {v : Value ν} (hplain : v.Plain P) (hdepth : v.depth ≤ reader.limit) :
    reader.read (style.text v) = .ok v := by
  have hrun := run_write hfollows v hplain [] false [] (by simpa using hdepth) (by simp [Ends])
  rw [List.append_nil] at hrun
  rw [read, Style.text, String.toList_ofList]
  exact hrun

end Reader

/-! ## Escapes and integers -/

namespace Reader

variable {ν ε : Type} {reader : Reader ν ε} {stack : List (Frame ν)} {purpose : Purpose}
  {codePoints : List Nat} {text : List Char}

theorem run_char {c : Char} (hquote : c ≠ '"') (hbackslash : c ≠ '\\') (hcontrol : 0x20 ≤ c.toNat) :
    reader.run (c :: text) ⟨stack, .string purpose codePoints⟩ =
      reader.run text ⟨stack, .string purpose (codePoints ++ [c.toNat])⟩ := by
  have hstep : reader.step ⟨stack, .string purpose codePoints⟩ c =
      .ok ⟨stack, .string purpose (codePoints ++ [c.toNat])⟩ := by
    simp [step, hquote, hbackslash, Nat.not_lt.mpr hcontrol]
  exact run_cons hstep

theorem run_backslash : reader.run ('\\' :: text) ⟨stack, .string purpose codePoints⟩ =
    reader.run text ⟨stack, .escape purpose codePoints⟩ := by
  have hstep : reader.step ⟨stack, .string purpose codePoints⟩ '\\' =
      .ok ⟨stack, .escape purpose codePoints⟩ := by
    simp [step]
  exact run_cons hstep

theorem run_short {entry : Nat × Char} (h : entry ∈ shortEscapes) :
    reader.run ('\\' :: entry.2 :: text) ⟨stack, .string purpose codePoints⟩ =
      reader.run text ⟨stack, .string purpose (codePoints ++ [entry.1])⟩ := by
  have hletters : ∀ entry ∈ shortEscapes, entry.2 ≠ 'u' ∧ shortEscape entry.2 = some entry.1 := by
    decide
  obtain ⟨hu, hread⟩ := hletters entry h
  have hstep : reader.step ⟨stack, .escape purpose codePoints⟩ entry.2 =
      .ok ⟨stack, .string purpose (codePoints ++ [entry.1])⟩ := by
    simp [step, hu, hread]
  rw [run_backslash, run_cons hstep]

theorem hexOf_hexDigit (n : Nat) : hexOf (hexDigit n) = some (n % 16) := by
  have hall : ∀ k < 16, hexOf (Nat.digitChar k) = some k := by decide
  exact hall _ (Nat.mod_lt _ (by decide))

theorem run_unicode {n : Nat} (h : n < 0x10000) :
    reader.run (unicodeEscape n ++ text) ⟨stack, .string purpose codePoints⟩ =
      reader.run text ⟨stack, .string purpose (pushUnit codePoints n)⟩ := by
  have hu : reader.step ⟨stack, .escape purpose codePoints⟩ 'u' =
      .ok ⟨stack, .unicode purpose codePoints []⟩ := by
    simp [step]
  have hdigit : ∀ k (digits : List Nat), digits.length < 3 →
      reader.step ⟨stack, .unicode purpose codePoints digits⟩ (hexDigit k) =
        .ok ⟨stack, .unicode purpose codePoints (digits ++ [k % 16])⟩ := by
    intro k digits hlength
    simp only [step, hexOf_hexDigit]
    split
    · simp at hlength
    · rename_i heq _
      cases heq
      rfl
    · rename_i heq
      cases heq
  have hlast : reader.step ⟨stack,
      .unicode purpose codePoints [n / 4096 % 16, n / 256 % 16, n / 16 % 16]⟩ (hexDigit n) =
      .ok ⟨stack, .string purpose (pushUnit codePoints n)⟩ := by
    have hvalue : 4096 * (n / 4096 % 16) + 256 * (n / 256 % 16) + 16 * (n / 16 % 16) + n % 16 =
        n := by omega
    simp only [step, hexOf_hexDigit, hvalue]
  rw [unicodeEscape, hexDigits, List.cons_append, List.cons_append, run_backslash, run_cons hu]
  rw [List.cons_append, run_cons (hdigit _ [] (by decide)), List.cons_append,
    run_cons (hdigit _ _ (by simp)),
    List.cons_append, run_cons (hdigit _ _ (by simp)), List.cons_append]
  exact run_cons hlast

variable (hvalid : ∀ c ∈ codePoints, c.isValidChar)
include hvalid

/-- No half of a pair stands at the end. -/
theorem pushUnit_valid (n : Nat) : pushUnit codePoints n = codePoints ++ [n] := by
  unfold pushUnit
  split
  · rename_i high hlast
    have hhigh : high < 0xd800 ∨ 0xdfff < high ∧ high < 0x110000 :=
      hvalid high (List.mem_of_getLast? hlast)
    rw [if_neg (by omega)]
  · rfl

theorem run_pair {n : Nat} (hlow : 0x10000 ≤ n) (hhigh : n < 0x110000) :
    reader.run (unicodeEscape (0xd800 + (n - 0x10000) / 1024 % 1024) ++
        unicodeEscape (0xdc00 + (n - 0x10000) % 1024) ++ text) ⟨stack, .string purpose codePoints⟩ =
      reader.run text ⟨stack, .string purpose (codePoints ++ [n])⟩ := by
  have hjoin : pushUnit (codePoints ++ [0xd800 + (n - 0x10000) / 1024 % 1024])
      (0xdc00 + (n - 0x10000) % 1024) = codePoints ++ [n] := by
    have hn : 0x10000 + (0xd800 + (n - 0x10000) / 1024 % 1024 - 0xd800) * 1024 +
        (0xdc00 + (n - 0x10000) % 1024 - 0xdc00) = n := by omega
    rw [pushUnit, List.getLast?_concat]
    dsimp only
    rw [if_pos (by omega), List.dropLast_concat, hn]
  rw [List.append_assoc, run_unicode (by omega), run_unicode (by omega),
    pushUnit_valid hvalid, hjoin]

omit hvalid in
/-- A code point that stands for itself. -/
theorem run_itself {c : Nat} (h : c.isValidChar) (hshort : shortEscapes.find? (·.1 = c) = none)
    (hcontrol : 0x20 ≤ c) :
    reader.run (Char.ofNat c :: text) ⟨stack, .string purpose codePoints⟩ =
      reader.run text ⟨stack, .string purpose (codePoints ++ [c])⟩ := by
  have hchar : (Char.ofNat c).toNat = c := by
    rw [Char.ofNat, dif_pos h]
    rfl
  have hne : ∀ c' : Char, (c'.toNat, c') ∈ shortEscapes → Char.ofNat c ≠ c' := by
    rintro _ hmem rfl
    rw [hchar] at hmem
    simpa using List.find?_eq_none.mp hshort _ hmem
  have hrun := @run_char ν ε reader stack purpose codePoints text (Char.ofNat c) (hne _ (by decide))
      (hne _ (by decide))
    (by omega)
  rw [hrun, hchar]

theorem run_escape {c : Nat} (h : c.isValidChar) :
    reader.run (escape c ++ text) ⟨stack, .string purpose codePoints⟩ =
      reader.run text ⟨stack, .string purpose (codePoints ++ [c])⟩ := by
  unfold escape
  cases hshort : shortEscapes.find? (·.1 = c) with
  | some entry =>
      have hkey : entry.1 = c := by simpa using List.find?_some hshort
      subst hkey
      exact run_short (List.mem_of_find?_eq_some hshort)
  | none =>
      have hrange : c < 0xd800 ∨ 0xdfff < c ∧ c < 0x110000 := h
      dsimp only
      split
      · rename_i hprintable
        exact run_itself h hshort hprintable.1
      · split
        · rename_i hplane
          rw [run_unicode hplane, pushUnit_valid hvalid]
        · rename_i hplane
          exact run_pair hvalid (Nat.not_lt.mp hplane) (by omega)

end Reader

namespace Reader

variable {ν ε : Type} {reader : Reader ν ε} {stack : List (Frame ν)} {text : List Char}

/-! ## Integers -/

/-- Where no number goes on, one that has been read is converted. -/
theorem run_endNumber {phase : NumberPhase} {l : Lexeme} {n : ν} (hends : Ends text)
    (hphase : phase = .zero ∨ phase = .whole) (hn : reader.convert (.lexeme l) = .ok n) :
    reader.run text ⟨stack, .number phase l⟩ = reader.run text ⟨stack, .after (.number n)⟩ := by
  have hend : reader.endNumber phase l = .ok (.number n) := by
    rcases hphase with rfl | rfl <;> simp [endNumber, hn, Except.map]
  cases text with
  | nil => cases stack <;> simp [run, finish, hend, bind, Except.bind]
  | cons c text =>
      have hstep : reader.step ⟨stack, .number phase l⟩ c = reader.follow stack (.number n) c := by
        have hnone : continueNumber phase l c = none := by
          rcases hphase with rfl | rfl <;> rcases hends c rfl with rfl | rfl | rfl <;> rfl
        have hminus : ¬ (phase = .minus ∧ c = 'I') := by rcases hphase with rfl | rfl <;> simp
        simp only [step, hnone, if_neg hminus, hend]
        rfl
      rw [run, run, hstep]
      rfl

theorem run_digits {digits : List Char} (h : ∀ c ∈ digits, c.isDigit = true) (l : Lexeme) :
    reader.run (digits ++ text) ⟨stack, .number .whole l⟩ =
      reader.run text ⟨stack, .number .whole { l with whole := l.whole ++ digits }⟩ := by
  induction digits generalizing l with
  | nil => rw [List.append_nil]; rfl
  | cons c digits ih =>
      have hstep : reader.step ⟨stack, .number .whole l⟩ c =
          .ok ⟨stack, .number .whole { l with whole := l.whole ++ [c] }⟩ := by
        simp [step, continueNumber, h c List.mem_cons_self]
      rw [List.cons_append, run_cons hstep, ih fun c' hc' => h c' (List.mem_cons_of_mem _ hc')]
      simp

/-- Only zero begins with a zero. -/
theorem toDigits_head {n : Nat} (h : 0 < n) :
    ∃ d digits, Nat.toDigits 10 n = Nat.digitChar d :: digits ∧ 0 < d ∧ d < 10 := by
  induction n using Nat.strongRecOn with
  | ind n ih =>
      by_cases hsmall : n < 10
      · exact ⟨n, [], Nat.toDigits_of_lt_base hsmall, h, hsmall⟩
      · obtain ⟨d, digits, hdigits, hd⟩ := ih (n / 10) (by omega) (by omega)
        refine ⟨d, digits ++ [Nat.digitChar (n % 10)], ?_, hd⟩
        rw [Nat.toDigits_of_base_le (by decide) (by omega), hdigits]
        rfl

/-- The digits of a natural number, after its sign. -/
theorem run_toDigits {n : Nat} {l : Lexeme} {m : ν} (hends : Ends text)
    (hm : reader.convert (.lexeme { l with whole := Nat.toDigits 10 n }) = .ok m) :
    reader.run (Nat.toDigits 10 n ++ text) ⟨stack, .number .minus l⟩ =
      reader.run text ⟨stack, .after (.number m)⟩ := by
  by_cases hzero : n = 0
  · subst hzero
    have hstep : reader.step ⟨stack, .number .minus l⟩ '0' =
        .ok ⟨stack, .number .zero { l with whole := ['0'] }⟩ := by
      simp [step, continueNumber]
    exact (run_cons hstep).trans (run_endNumber hends (.inl rfl) hm)
  · obtain ⟨d, digits, hdigits, hpos, hten⟩ := toDigits_head (Nat.pos_of_ne_zero hzero)
    have hall : ∀ c ∈ Nat.toDigits 10 n, c.isDigit = true :=
      fun c hc => Nat.isDigit_of_mem_toDigits (by decide) (by decide) hc
    rw [hdigits] at hm hall ⊢
    have hd : ∀ d < 10, 0 < d → Nat.digitChar d ≠ '0' := by decide
    have hstep : reader.step ⟨stack, .number .minus l⟩ (Nat.digitChar d) =
        .ok ⟨stack, .number .whole { l with whole := [Nat.digitChar d] }⟩ := by
      simp [step, continueNumber, hd d hten hpos, hall _ List.mem_cons_self]
    rw [List.cons_append, run_cons hstep, run_digits fun c hc => hall c (List.mem_cons_of_mem _ hc)]
    exact run_endNumber hends (.inr rfl) hm

/-- The lexeme of an integer. -/
def intLexeme : Int → Lexeme
  | .ofNat n => { whole := Nat.toDigits 10 n }
  | .negSucc n => { negative := true, whole := Nat.toDigits 10 (n + 1) }

/-- A digit begins a number. -/
theorem step_digit {c : Char} (h : c.isDigit = true) (first : Bool) :
    reader.step ⟨stack, .value first⟩ c = reader.step ⟨stack, .number .minus {}⟩ c := by
  have hne : ∀ c' : Char, c'.isDigit = false → c ≠ c' := by
    rintro c' hc' rfl
    rw [h] at hc'
    cases hc'
  have hblank : isBlank c = false := by
    simp [isBlank, hne ' ' (by decide), hne '\t' (by decide), hne '\n' (by decide),
      hne '\r' (by decide)]
  obtain ⟨phase, l, hcontinue⟩ : ∃ phase l, continueNumber .minus {} c = some (phase, l) := by
    by_cases hzero : c = '0' <;> simp [continueNumber, hzero, h]
  have hnumber : reader.step ⟨stack, .number .minus {}⟩ c = .ok ⟨stack, .number phase l⟩ := by
    simp [step, hcontinue]
  rw [step_value hblank (hne _ (by decide)), hnumber]
  unfold begin
  split
  all_goals first | exact absurd rfl (hne _ (by decide)) | skip
  rw [hcontinue]

theorem run_writeInt {n : Int} {m : ν} (hm : reader.convert (.lexeme (intLexeme n)) = .ok m)
    (first : Bool) (hends : Ends text) :
    reader.run (writeInt n ++ text) ⟨stack, .value first⟩ =
      reader.run text ⟨stack, .after (.number m)⟩ := by
  cases n with
  | ofNat n =>
      have hrun := @run_toDigits ν ε reader stack text n {} m hends hm
      obtain ⟨c, digits, hdigits⟩ := List.exists_cons_of_ne_nil (@Nat.toDigits_ne_nil n 10)
      have hc : c.isDigit = true :=
        Nat.isDigit_of_mem_toDigits (by decide) (by decide) (hdigits ▸ List.mem_cons_self :
          c ∈ Nat.toDigits 10 n)
      rw [writeInt, ← hrun, hdigits, List.cons_append, run, run, step_digit hc]
  | negSucc n =>
      have hstep : reader.step ⟨stack, .value first⟩ '-' =
          .ok ⟨stack, .number .minus { negative := true }⟩ :=
        step_value (by decide) (by decide) first
      rw [writeInt, List.cons_append, run_cons hstep]
      exact run_toDigits hends hm

/-- **A reader that converts integers follows a style that writes integers.** -/
theorem follows_of_integers {reader : Reader ν ε} {style : Style ν} {P : ν → Prop}
    (hgap : ∀ c ∈ style.gap, isBlank c = true) (hescape : style.escape = Json.escape)
    (hnumber : ∀ n, P n → ∃ k, style.number n = writeInt k ∧
      reader.convert (.lexeme (intLexeme k)) = .ok n) :
    reader.Follows style P where
  gap := hgap
  escape _ hc _ _ _ _ hvalid := by
    rw [hescape]
    exact run_escape hvalid hc
  number n hn _ first _ hends := by
    obtain ⟨k, hwrite, hconvert⟩ := hnumber n hn
    rw [hwrite]
    exact run_writeInt hconvert first hends

end Reader

/-- The value of an integer's lexeme. -/
def Lexeme.toInt (l : Lexeme) : Int :=
  let n : Nat := Nat.ofDigitChars 10 l.whole 0
  if l.negative then -n else n

theorem toInt_intLexeme (n : Int) : (Reader.intLexeme n).toInt = n := by
  cases n with
  | ofNat n => simp [Lexeme.toInt, Reader.intLexeme, Nat.ofDigitChars_ten_toDigits]
  | negSucc n =>
      simp [Lexeme.toInt, Reader.intLexeme, Nat.ofDigitChars_ten_toDigits]
      omega

end Json
