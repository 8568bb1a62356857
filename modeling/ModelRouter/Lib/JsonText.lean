import Mathlib.Data.List.Perm.Basic
import ModelRouter.Lib.Json
import ModelRouter.Lib.Text

/-!
# The text of a JSON value

What `json.dumps` writes of a value whose numbers are integers, in ASCII: as it is (`dumps`), or
with sorted keys and without blanks (`dumpsSorted`).

* `escape` : a code point inside a string; `readCodePoint` reads it back (`readCodePoint_escape`);
* `write_cancel` : two values with one text are the same, whatever follows, if their strings are
  texts;
* `sortKeys_object` : two objects over the same keys agree where their sorted forms do.
-/

namespace Json
open Text

/-! ## Code points -/

/-- A lower-case hexadecimal digit. -/
def hexDigit (n : Nat) : Char := Nat.digitChar (n % 16)

def hexDigits (n : Nat) : List Char :=
  [hexDigit (n / 4096), hexDigit (n / 256), hexDigit (n / 16), hexDigit n]

/-- A backslash, `u` and four hexadecimal digits. -/
def unicodeEscape (n : Nat) : List Char := '\\' :: 'u' :: hexDigits n

/-- `ESCAPE_DCT`: the code points with an escape of their own. -/
def shortEscapes : List (Nat × Char) :=
  [(0x5c, '\\'), (0x22, '"'), (0x08, 'b'), (0x0c, 'f'), (0x0a, 'n'), (0x0d, 'r'), (0x09, 't')]

/-- `py_encode_basestring_ascii`, for one code point. -/
def escape (c : Nat) : List Char :=
  match shortEscapes.find? (·.1 = c) with
  | some entry => ['\\', entry.2]
  | none =>
    if 0x20 ≤ c ∧ c ≤ 0x7e then [Char.ofNat c]
    else if c < 0x10000 then unicodeEscape c
    else -- a surrogate pair
      unicodeEscape (0xd800 + (c - 0x10000) / 1024 % 1024) ++
        unicodeEscape (0xdc00 + (c - 0x10000) % 1024)

def hexValue (c : Char) : Nat := if c.isDigit then c.toNat - 48 else c.toNat - 87

def readUnit : List Char → Option (Nat × List Char)
  | a :: b :: c :: d :: rest =>
      some (4096 * hexValue a + 256 * hexValue b + 16 * hexValue c + hexValue d, rest)
  | _ => none

/-- A surrogate is read with its other half. -/
def readPair (unit : Nat × List Char) : Option (Nat × List Char) :=
  if 0xd800 ≤ unit.1 ∧ unit.1 < 0xdc00 then
    (readUnit (unit.2.drop 2)).map fun low =>
      (0x10000 + (unit.1 - 0xd800) * 1024 + (low.1 - 0xdc00), low.2)
  else some unit

/-- The code point that an escape stands for, and what follows. -/
def readCodePoint : List Char → Option (Nat × List Char)
  | '\\' :: 'u' :: rest => (readUnit rest).bind readPair
  | '\\' :: short :: rest => (shortEscapes.find? (·.2 = short)).map fun entry => (entry.1, rest)
  | c :: rest => some (c.toNat, rest)
  | [] => none

theorem hexValue_hexDigit (n : Nat) : hexValue (hexDigit n) = n % 16 := by
  have hall : ∀ k < 16, hexValue (Nat.digitChar k) = k := by decide
  exact hall _ (Nat.mod_lt _ (by decide))

theorem readUnit_hexDigits {n : Nat} (h : n < 0x10000) (r : List Char) :
    readUnit (hexDigits n ++ r) = some (n, r) := by
  simp only [hexDigits, List.cons_append, List.nil_append, readUnit, hexValue_hexDigit,
    Option.some.injEq, Prod.mk.injEq,
    and_true]
  omega

theorem readCodePoint_unicodeEscape {n : Nat} (h : n < 0x10000) (r : List Char) :
    readCodePoint (unicodeEscape n ++ r) = readPair (n, r) := by
  rw [unicodeEscape, List.cons_append, List.cons_append, readCodePoint, readUnit_hexDigits h,
    Option.bind_some]

theorem readCodePoint_short (r : List Char) :
    ∀ entry ∈ shortEscapes, readCodePoint ('\\' :: entry.2 :: r) = some (entry.1, r) := by
  simp [shortEscapes, readCodePoint]

theorem readCodePoint_pair {high low : Nat} (hhigh : high < 1024) (hlow : low < 1024)
    (r : List Char) :
    readCodePoint (unicodeEscape (0xd800 + high) ++ unicodeEscape (0xdc00 + low) ++ r) =
      some (0x10000 + high * 1024 + low, r) := by
  have hdrop : (unicodeEscape (0xdc00 + low) ++ r).drop 2 = hexDigits (0xdc00 + low) ++ r := rfl
  rw [List.append_assoc, readCodePoint_unicodeEscape (by omega), readPair]
  dsimp only
  rw [if_pos (by omega), hdrop, readUnit_hexDigits (by omega), Option.map_some]
  simp

/-- **An escape is read back.** -/
theorem readCodePoint_escape {c : Nat} (h : c.isValidChar) (r : List Char) :
    readCodePoint (escape c ++ r) = some (c, r) := by
  unfold escape
  cases hshort : shortEscapes.find? (·.1 = c) with
  | some entry =>
      have hmem := List.mem_of_find?_eq_some hshort
      have hkey : entry.1 = c := by simpa using List.find?_some hshort
      subst hkey
      exact readCodePoint_short r entry hmem
  | none =>
      dsimp only
      by_cases hprintable : 0x20 ≤ c ∧ c ≤ 0x7e
      · have hne : c ≠ 0x5c := by
          rintro rfl
          simp [shortEscapes] at hshort
        have hchar : (Char.ofNat c).toNat = c := by
          rw [Char.ofNat, dif_pos h]
          rfl
        have hbackslash : Char.ofNat c ≠ '\\' := by
          intro heq
          rw [heq] at hchar
          exact hne hchar.symm
        rw [if_pos hprintable]
        simp [readCodePoint, hbackslash, hchar]
      · rw [if_neg hprintable]
        have hvalid : c < 0xd800 ∨ 0xdfff < c ∧ c < 0x110000 := h
        by_cases hplane : c < 0x10000
        · rw [if_pos hplane, readCodePoint_unicodeEscape hplane, readPair]
          exact if_neg (by dsimp only; omega)
        · rw [if_neg hplane, readCodePoint_pair (by omega) (by omega), Option.some.injEq,
            Prod.mk.injEq]
          exact ⟨by omega, rfl⟩

/-! ## Numbers and strings -/

def writeInt : Int → List Char
  | .ofNat n => Nat.toDigits 10 n
  | .negSucc n => '-' :: Nat.toDigits 10 (n + 1)

theorem writeInt_cancel {n n' : Int} {r r' : List Char} (hr : NoDigit r) (hr' : NoDigit r')
    (h : writeInt n ++ r = writeInt n' ++ r') : n = n' ∧ r = r' := by
  have hminus : ∀ n t t', Nat.toDigits 10 n ++ t ≠ '-' :: t' := by
    intro n t t' heq
    obtain ⟨c, rest, hdigits⟩ := List.exists_cons_of_ne_nil (@Nat.toDigits_ne_nil n 10)
    have hdigit := Nat.isDigit_of_mem_toDigits (by decide) (by decide)
        (hdigits ▸ List.mem_cons_self : c ∈ Nat.toDigits 10 n)
    rw [hdigits, List.cons_append, List.cons.injEq] at heq
    rw [heq.1] at hdigit
    exact absurd hdigit (by decide)
  match n, n' with
  | .ofNat n, .ofNat n' =>
      obtain ⟨rfl, hrest⟩ := toDigits_cancel hr hr' h
      exact ⟨rfl, hrest⟩
  | .negSucc n, .negSucc n' =>
      obtain ⟨hn, hrest⟩ := toDigits_cancel hr hr' (List.cons.inj h).2
      exact ⟨by omega, hrest⟩
  | .ofNat n, .negSucc n' => exact absurd h (hminus n _ _)
  | .negSucc n, .ofNat n' => exact absurd h.symm (hminus n' _ _)

def writeString (s : Str) : List Char := '"' :: (s.codePoints.flatMap escape ++ ['"'])

theorem escape_ne_quote (c : Nat) (r r' : List Char) : escape c ++ r ≠ '"' :: r' := by
  intro heq
  unfold escape at heq
  cases hshort : shortEscapes.find? (·.1 = c) with
  | some entry => simp [hshort] at heq
  | none =>
      rw [hshort] at heq
      dsimp only at heq
      split_ifs at heq with hprintable hplane
      · have hquote : Char.ofNat c = '"' := (List.cons.inj heq).1
        have hvalid : c.isValidChar := Or.inl (by omega)
        have hc : c = 0x22 := by
          have htoNat := congrArg Char.toNat hquote
          rw [Char.ofNat, dif_pos hvalid] at htoNat
          exact htoNat
        rw [hc] at hshort
        simp [shortEscapes] at hshort
      · simp [unicodeEscape] at heq
      · simp [unicodeEscape] at heq

theorem escapes_cancel {l l' : List Nat} {r r' : List Char} (hl : ∀ c ∈ l, c.isValidChar)
    (hl' : ∀ c ∈ l', c.isValidChar)
    (h : l.flatMap escape ++ '"' :: r = l'.flatMap escape ++ '"' :: r') :
    l = l' ∧ r = r' := by
  induction l generalizing l' with
  | nil =>
      cases l' with
      | nil => exact ⟨rfl, (List.cons.inj h).2⟩
      | cons c l' =>
          rw [List.flatMap_cons, List.append_assoc] at h
          exact absurd h.symm (escape_ne_quote c _ _)
  | cons c l ih =>
      rw [List.flatMap_cons, List.append_assoc] at h
      cases l' with
      | nil => exact absurd h (escape_ne_quote c _ _)
      | cons c' l' =>
          rw [List.flatMap_cons, List.append_assoc] at h
          have hread := congrArg readCodePoint h
          rw [readCodePoint_escape (hl c List.mem_cons_self),
            readCodePoint_escape (hl' c' List.mem_cons_self),
            Option.some.injEq, Prod.mk.injEq] at hread
          obtain ⟨rfl, hrest⟩ := hread
          obtain ⟨rfl, hr⟩ := ih (fun b hb => hl b (List.mem_cons_of_mem _ hb))
            (fun b hb => hl' b (List.mem_cons_of_mem _ hb)) hrest
          exact ⟨rfl, hr⟩

/-- The string is a text. -/
def Str.IsText : Str → Prop
  | .text _ => True
  | .surrogates _ => False

theorem writeString_cancel {s s' : Str} {r r' : List Char} (hs : s.IsText) (hs' : s'.IsText)
    (h : writeString s ++ r = writeString s' ++ r') : s = s' ∧ r = r' := by
  match s, s' with
  | .text s, .text s' =>
      have hvalid : ∀ s : String, ∀ c ∈ s.toList.map Char.toNat, c.isValidChar := by
        intro s c hc
        obtain ⟨char, -, rfl⟩ := List.mem_map.mp hc
        exact char.valid
      unfold writeString at h
      rw [List.cons_append, List.cons_append, List.append_assoc, List.append_assoc] at h
      obtain ⟨hpoints, hr⟩ := escapes_cancel (hvalid s) (hvalid s') (List.cons.inj h).2
      have hchars : s.toList = s'.toList :=
        List.map_injective_iff.mpr (fun _ _ => Char.toNat_inj.mp) hpoints
      exact ⟨congrArg Str.text (String.toList_inj.mp hchars), hr⟩

/-! ## Values -/

namespace Value

/-- What stands before an item: `gap` follows every comma and every colon. -/
def separator (gap : List Char) (first : Bool) : List Char := if first then [] else ',' :: gap

mutual

def write (gap : List Char) : Value Int → List Char
  | .null => "null".toList
  | .bool true => "true".toList
  | .bool false => "false".toList
  | .number n => writeInt n
  | .string s => writeString s
  | .array items => '[' :: writeItems gap true items
  | .object members => '\x7b' :: writeMembers gap true members

/-- The items, and the bracket that closes them. -/
def writeItems (gap : List Char) (first : Bool) : List (Value Int) → List Char
  | [] => [']']
  | item :: items => separator gap first ++ (item.write gap ++ writeItems gap false items)

def writeMembers (gap : List Char) (first : Bool) : List (Str × Value Int) → List Char
  | [] => ['\x7d']
  | (key, value) :: members =>
    separator gap first ++ (writeString key ++
      (':' :: gap ++ (value.write gap ++ writeMembers gap false members)))

end

mutual

/-- Every string and every key is a text. -/
def IsText : Value Int → Prop
  | .string s => s.IsText
  | .array items => ItemsText items
  | .object members => MembersText members
  | _ => True

def ItemsText : List (Value Int) → Prop
  | [] => True
  | item :: items => item.IsText ∧ ItemsText items

def MembersText : List (Str × Value Int) → Prop
  | [] => True
  | (key, value) :: members => key.IsText ∧ value.IsText ∧ MembersText members

end

variable {gap : List Char}

/-- Which values begin with a character. -/
def lead : Char → Nat
  | 'n' => 0
  | 't' | 'f' => 1
  | '"' => 2
  | '[' => 3
  | '\x7b' => 4
  | ']' => 5
  | _ => 6

def kind : Value Int → Nat
  | .null => 0
  | .bool _ => 1
  | .string _ => 2
  | .array _ => 3
  | .object _ => 4
  | .number _ => 6

theorem lead_digit {c : Char} (h : c.isDigit) : lead c = 6 := by
  unfold lead
  split <;> first | rfl | exact absurd h (by decide)

theorem write_lead (v : Value Int) : ∃ c rest, v.write gap = c :: rest ∧ lead c = v.kind := by
  cases v with
  | null => exact ⟨_, _, rfl, rfl⟩
  | bool b => cases b <;> exact ⟨_, _, rfl, rfl⟩
  | string s => exact ⟨_, _, rfl, rfl⟩
  | array items => exact ⟨_, _, rfl, rfl⟩
  | object members => exact ⟨_, _, rfl, rfl⟩
  | number n =>
      cases n with
      | negSucc n => exact ⟨_, _, rfl, rfl⟩
      | ofNat n =>
          obtain ⟨c, rest, hdigits⟩ := List.exists_cons_of_ne_nil (@Nat.toDigits_ne_nil n 10)
          have hdigit := Nat.isDigit_of_mem_toDigits (by decide) (by decide)
            (hdigits ▸ List.mem_cons_self : c ∈ Nat.toDigits 10 n)
          exact ⟨c, rest, hdigits, lead_digit hdigit⟩

theorem kind_eq {v v' : Value Int} {r r' : List Char} (h : v.write gap ++ r = v'.write gap ++ r') :
    v.kind = v'.kind := by
  obtain ⟨c, rest, hv, hc⟩ := write_lead v
  obtain ⟨c', rest', hv', hc'⟩ := write_lead v'
  rw [hv, hv'] at h
  rw [← hc, ← hc', (List.cons.inj h).1]

theorem write_ne_bracket (v : Value Int) (r r' : List Char) : v.write gap ++ r ≠ ']' :: r' := by
  obtain ⟨c, rest, hv, hc⟩ := write_lead v
  intro heq
  rw [hv] at heq
  rw [(List.cons.inj heq).1] at hc
  cases v <;> simp [lead, kind] at hc

theorem writeItems_ne_nil {first : Bool} (item : Value Int) (items : List (Value Int))
    (r r' : List Char) :
    writeItems gap first (item :: items) ++ r ≠ writeItems gap first [] ++ r' := by
  cases first with
  | true =>
      rw [writeItems, writeItems, separator, if_pos rfl, List.nil_append, List.append_assoc]
      exact write_ne_bracket item _ _
  | false => simp [writeItems, separator]

theorem writeMembers_ne_nil {first : Bool} (member : Str × Value Int)
    (members : List (Str × Value Int))
    (r r' : List Char) : writeMembers gap first (member :: members) ++ r ≠ writeMembers gap first
    [] ++ r' := by
  cases first <;> simp [writeMembers, separator, writeString]

theorem noDigit_items (items : List (Value Int)) (r : List Char) :
    NoDigit (writeItems gap false items ++ r) := by
  cases items with
  | nil => simp [NoDigit, writeItems]
  | cons item items => simp [NoDigit, writeItems, separator]

theorem noDigit_members (members : List (Str × Value Int)) (r : List Char) :
    NoDigit (writeMembers gap false members ++ r) := by
  cases members with
  | nil => simp [NoDigit, writeMembers]
  | cons member members => simp [NoDigit, writeMembers, separator]

mutual

/-- **Values with one text are the same.** -/
theorem write_cancel {v v' : Value Int} {r r' : List Char} (hv : v.IsText) (hv' : v'.IsText)
    (hr : NoDigit r)
    (hr' : NoDigit r') (h : v.write gap ++ r = v'.write gap ++ r') : v = v' ∧ r = r' := by
  have hkind := kind_eq h
  cases v with
  | null =>
      cases v' with
      | null => exact ⟨rfl, List.append_cancel_left h⟩
      | _ => simp [kind] at hkind
  | bool b =>
      cases v' with
      | bool b' =>
          cases b <;> cases b' <;> first | exact ⟨rfl, List.append_cancel_left h⟩ |
            simp [write] at h
      | _ => simp [kind] at hkind
  | number n =>
      cases v' with
      | number n' =>
          obtain ⟨rfl, hrest⟩ := writeInt_cancel hr hr' h
          exact ⟨rfl, hrest⟩
      | _ => simp [kind] at hkind
  | string s =>
      cases v' with
      | string s' =>
          obtain ⟨rfl, hrest⟩ := writeString_cancel hv hv' h
          exact ⟨rfl, hrest⟩
      | _ => simp [kind] at hkind
  | array items =>
      cases v' with
      | array items' =>
          obtain ⟨rfl, hrest⟩ := writeItems_cancel hv hv' (List.cons.inj h).2
          exact ⟨rfl, hrest⟩
      | _ => simp [kind] at hkind
  | object members =>
      cases v' with
      | object members' =>
          obtain ⟨rfl, hrest⟩ := writeMembers_cancel hv hv' (List.cons.inj h).2
          exact ⟨rfl, hrest⟩
      | _ => simp [kind] at hkind

theorem writeItems_cancel {first : Bool} {items items' : List (Value Int)} {r r' : List Char}
    (hv : ItemsText items) (hv' : ItemsText items')
    (h : writeItems gap first items ++ r = writeItems gap first items' ++ r') :
    items = items' ∧ r = r' := by
  cases items with
  | nil =>
      cases items' with
      | nil => exact ⟨rfl, (List.cons.inj h).2⟩
      | cons item items' => exact absurd h.symm (writeItems_ne_nil item items' _ _)
  | cons item items =>
      cases items' with
      | nil => exact absurd h (writeItems_ne_nil item items _ _)
      | cons item' items' =>
          simp only [writeItems, List.append_assoc] at h
          obtain ⟨rfl, hrest⟩ := write_cancel hv.1 hv'.1 (noDigit_items items r)
            (noDigit_items items' r') (List.append_cancel_left h)
          obtain ⟨rfl, hr⟩ := writeItems_cancel hv.2 hv'.2 hrest
          exact ⟨rfl, hr⟩

theorem writeMembers_cancel {first : Bool} {members members' : List (Str × Value Int)}
    {r r' : List Char} (hv : MembersText members) (hv' : MembersText members')
    (h : writeMembers gap first members ++ r = writeMembers gap first members' ++ r') :
      members = members' ∧ r = r' := by
  cases members with
  | nil =>
      cases members' with
      | nil => exact ⟨rfl, (List.cons.inj h).2⟩
      | cons member members' => exact absurd h.symm (writeMembers_ne_nil member members' _ _)
  | cons member members =>
      cases members' with
      | nil => exact absurd h (writeMembers_ne_nil member members _ _)
      | cons member' members' =>
          obtain ⟨key, value⟩ := member
          obtain ⟨key', value'⟩ := member'
          simp only [writeMembers, List.append_assoc, List.cons_append] at h
          obtain ⟨rfl, hvalue⟩ := writeString_cancel hv.1 hv'.1 (List.append_cancel_left h)
          obtain ⟨rfl, hrest⟩ := write_cancel hv.2.1 hv'.2.1 (noDigit_members members r)
            (noDigit_members members' r') (List.append_cancel_left (List.cons.inj hvalue).2)
          obtain ⟨rfl, hr⟩ := writeMembers_cancel hv.2.2 hv'.2.2 hrest
          exact ⟨rfl, hr⟩

end

/-! ## Sorted keys -/

mutual

/-- The value with the members of every object in the order of their keys. -/
def sortKeys : Value Int → Value Int
  | .array items => .array (sortItems items)
  | .object members =>
    .object ((sortMembers members).mergeSort fun member member' =>
      member.1.codePoints ≤ member'.1.codePoints)
  | v => v

def sortItems : List (Value Int) → List (Value Int)
  | [] => []
  | item :: items => item.sortKeys :: sortItems items

def sortMembers : List (Str × Value Int) → List (Str × Value Int)
  | [] => []
  | (key, value) :: members => (key, value.sortKeys) :: sortMembers members

end

theorem membersText_iff {members : List (Str × Value Int)} :
    MembersText members ↔ ∀ member ∈ members, member.1.IsText ∧ member.2.IsText := by
  induction members with
  | nil => simp [MembersText]
  | cons member members ih => simp [MembersText, ih, and_assoc]

mutual

theorem isText_sortKeys {v : Value Int} (h : v.IsText) : v.sortKeys.IsText := by
  cases v with
  | array items => exact itemsText_sortItems h
  | object members =>
      have hmembers := membersText_iff.mp (membersText_sortMembers h)
      refine membersText_iff.mpr fun member hmember => ?_
      exact hmembers member (List.mem_mergeSort.mp hmember)
  | _ => exact h

theorem itemsText_sortItems {items : List (Value Int)} (h : ItemsText items) :
    ItemsText (sortItems items) := by
  cases items with
  | nil => trivial
  | cons item items => exact ⟨isText_sortKeys h.1, itemsText_sortItems h.2⟩

theorem membersText_sortMembers {members : List (Str × Value Int)} (h : MembersText members) :
    MembersText (sortMembers members) := by
  cases members with
  | nil => trivial
  | cons member members => exact ⟨h.1, isText_sortKeys h.2.1, membersText_sortMembers h.2.2⟩

end

theorem sortItems_eq_map (items : List (Value Int)) : sortItems items = items.map sortKeys := by
  induction items with
  | nil => rfl
  | cons item items ih => rw [sortItems, ih, List.map_cons]

theorem sortMembers_eq_map (members : List (Str × Value Int)) :
    sortMembers members = members.map fun member => (member.1, member.2.sortKeys) := by
  induction members with
  | nil => rfl
  | cons member members ih => rw [sortMembers, ih, List.map_cons]

/-- Entries that are the same up to order are the same where their keys are. -/
theorem eq_of_perm_of_keys {α β : Type} {l l' : List (α × β)} (hperm : l.Perm l')
    (hkeys : l.map (·.1) = l'.map (·.1)) (hnodup : (l.map (·.1)).Nodup) : l = l' := by
  induction l generalizing l' with
  | nil => exact hperm.nil_eq
  | cons entry l ih =>
      cases l' with
      | nil => exact hperm.eq_nil
      | cons entry' l' =>
          obtain ⟨-, hrest⟩ := List.cons.inj hkeys
          obtain ⟨hfresh, hnodup⟩ := List.nodup_cons.mp hnodup
          have hentry : entry = entry' := by
            rcases List.mem_cons.mp (hperm.mem_iff.mp List.mem_cons_self) with heq | hmem
            · exact heq
            · exact absurd (hrest ▸ List.mem_map_of_mem hmem) hfresh
          subst hentry
          rw [ih hperm.cons_inv hrest hnodup]

/-- Two objects over the same keys agree where their sorted forms do. -/
theorem sortKeys_object {members members' : List (Str × Value Int)}
    (hkeys : members.map (·.1) = members'.map (·.1)) (hnodup : (members.map (·.1)).Nodup)
    (h : (Value.object members).sortKeys = (Value.object members').sortKeys) :
    members.map (fun member => (member.1, member.2.sortKeys)) =
      members'.map fun member => (member.1, member.2.sortKeys) := by
  have hsorted := Value.object.inj h
  rw [sortMembers_eq_map, sortMembers_eq_map] at hsorted
  have hperm := (List.mergeSort_perm (members.map fun member =>
      (member.1, member.2.sortKeys)) fun member member' =>
    member.1.codePoints ≤ member'.1.codePoints).symm
  rw [hsorted] at hperm
  apply eq_of_perm_of_keys (hperm.trans (List.mergeSort_perm _ _))
  · simpa [Function.comp_def] using hkeys
  · simpa [Function.comp_def] using hnodup

/-- `json.dumps(value)`. -/
def dumps (v : Value Int) : String := String.ofList (v.write [' '])

/-- `json.dumps(value, sort_keys=True, separators=(",", ":"))`. -/
def dumpsSorted (v : Value Int) : String := String.ofList (v.sortKeys.write [])

theorem eq_of_write {v v' : Value Int} (hv : v.IsText) (hv' : v'.IsText)
    (h : String.ofList (v.write gap) = String.ofList (v'.write gap)) : v = v' := by
  have htext : v.write gap ++ [] = v'.write gap ++ [] := by
    rw [String.ofList_injective h]
  have hnil : NoDigit [] := fun c hc => by cases hc
  exact (write_cancel hv hv' hnil hnil htext).1

/-- **Values with one text are the same.** -/
theorem dumps_inj {v v' : Value Int} (hv : v.IsText) (hv' : v'.IsText) (h : v.dumps = v'.dumps) :
    v = v' :=
  eq_of_write hv hv' h

/-- **Values with one sorted text are the same, up to the order of their members.** -/
theorem dumpsSorted_inj {v v' : Value Int} (hv : v.IsText) (hv' : v'.IsText)
    (h : v.dumpsSorted = v'.dumpsSorted) :
    v.sortKeys = v'.sortKeys :=
  eq_of_write (isText_sortKeys hv) (isText_sortKeys hv') h

end Value

end Json
