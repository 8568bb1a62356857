import Mathlib.Data.List.Basic
import Mathlib.Data.String.Basic

/-!
# Paths and directories

* `Path` : a path with the names of its text, without the empty ones and `.`;
* `FileSystem.locate` : where a path leads, by its names from the root or from the working
  directory; `..` leads to the directory above, which is the root for the root itself.

A location is the list of the names below the root. A name that is joined to a directory's path
leads to an entry of that directory if it has no slash (`locate_join`); with a slash, it leads to an
entry whose name is another one (`locate_join_slash`). There are no symbolic links.
-/

namespace Posix

/-! ## Paths -/

structure Path where
  absolute : Bool := false
  parts : List String
deriving DecidableEq, Repr

/-- The names between the slashes of a text. -/
def names (text : String) : List String :=
  ((text.toList.splitOn '/').map String.ofList).filter fun name => name ≠ "" ∧ name ≠ "."

def ofText (text : String) : Path where
  absolute := text.toList.head? = some '/'
  parts := names text

namespace Path

/-- `base / text`: an absolute text takes the place of the base. -/
def join (base : Path) (text : String) : Path :=
  if (ofText text).absolute then ofText text else { base with parts := base.parts ++ names text }

def name (path : Path) : String := path.parts.getLast?.getD ""

/-- The extension of the name, with its dot. A dot that begins or ends the name makes none. -/
def suffix (path : Path) : String :=
  let reversed := path.name.toList.reverse
  match reversed.takeWhile (· ≠ '.'), reversed.dropWhile (· ≠ '.') with
  | c :: extension, _ :: _ :: _ => String.ofList ('.' :: (c :: extension).reverse)
  | _, _ => ""

/-- The text of a path. -/
def text (path : Path) : String :=
  let relative := String.intercalate "/" path.parts
  if path.absolute then "/" ++ relative else if path.parts = [] then "." else relative

end Path

/-- The last name of a text that ends in an extension. -/
theorem splitOn_append (c : Char) (l e : List Char) (he : c ∉ e) :
    ∃ init last, l.splitOn c = init ++ [last] ∧ (l ++ e).splitOn c = init ++ [last ++ e] ∧
      c ∉ last := by
  induction l with
  | nil =>
      refine ⟨[], [], by simp, ?_, by simp⟩
      simpa using List.splitOn_eq_singleton he
  | cons a l ih =>
      obtain ⟨init, last, hl, hle, hlast⟩ := ih
      rw [List.cons_append, List.splitOn_cons_eq_if_modifyHead,
        List.splitOn_cons_eq_if_modifyHead, hl, hle]
      by_cases ha : (a == c) = true
      · rw [if_pos ha, if_pos ha]
        exact ⟨[] :: init, last, rfl, rfl, hlast⟩
      · rw [if_neg ha, if_neg ha]
        cases init with
        | nil =>
            have hac : c ≠ a := fun hca => ha (beq_iff_eq.mpr hca.symm)
            exact ⟨[], a :: last, rfl, rfl, by simp [hac, hlast]⟩
        | cons first init => exact ⟨(a :: first) :: init, last, rfl, rfl, hlast⟩

/-- An extension: it has a dot, more than that, and no slash. -/
structure Extension (extension : String) : Prop where
  long : 2 < extension.length
  no_slash : '/' ∉ extension.toList

theorem Extension.filtered {extension : String} (h : Extension extension) (last : List Char) :
    String.ofList (last ++ extension.toList) ≠ "" ∧
    String.ofList (last ++ extension.toList) ≠ "." := by
  have hlong := h.long
  have hlength : (String.ofList (last ++ extension.toList)).length =
      last.length + extension.length := by simp
  constructor
  · intro heq
    rw [heq] at hlength
    simp at hlength
    omega
  · intro heq
    have hdot : ".".length = 1 := rfl
    rw [heq, hdot] at hlength
    omega

/-- A text with an extension has a last name, which ends in it. -/
theorem names_append {extension : String} (h : Extension extension) (text : String) :
    ∃ init last, names (text ++ extension) = init ++ [String.ofList (last ++ extension.toList)] ∧
      '/' ∉ last ∧
      ('/' ∉ text.toList → init = [] ∧ last = text.toList) := by
  obtain ⟨init, last, hsplit, happend, hlast⟩ :=
    splitOn_append '/' text.toList extension.toList h.no_slash
  have hnames : names (text ++ extension) =
      ((init.map String.ofList).filter fun name => name ≠ "" ∧ name ≠ ".") ++
        [String.ofList (last ++ extension.toList)] := by
    rw [names, String.toList_append, happend, List.map_append, List.filter_append]
    congr 1
    exact List.filter_cons_of_pos (decide_eq_true (h.filtered last))
  refine ⟨_, last, hnames, hlast, fun hplain => ?_⟩
  rw [List.splitOn_eq_singleton hplain] at hsplit
  cases init with
  | nil => simp_all
  | cons first init => simp at hsplit

/-! ## Directories -/

inductive Node (δ : Type) where
  | file (data : δ)
  | directory

/-- Where a path leads. A look up may be refused, for a name that is too long or for lack of
permission. -/
inductive Located where
  | missing
  | refused
  | found (location : List String)
deriving DecidableEq, Repr

structure FileSystem (δ : Type) where
  node : List String → Option (Node δ)
  refused : List String → Bool := fun _ => false
  workingDirectory : List String := []

/-- These directories and these files, and nothing else. -/
def FileSystem.ofEntries {δ : Type} (directories : List (List String))
    (files : List (List String × δ)) :
    FileSystem δ where
  node location :=
    if location ∈ directories then some .directory else (files.lookup location).map .file

namespace FileSystem

variable {δ : Type} (fs : FileSystem δ)

/-- Follow the names from a location. -/
def walk : List String → List String → Located
  | location, [] => .found location
  | location, name :: names => match fs.node location with
    | some .directory =>
      if name = ".." then walk location.dropLast names
      else if fs.refused (location ++ [name]) then .refused
      else if (fs.node (location ++ [name])).isSome then walk (location ++ [name]) names
      else .missing
    | _ => .missing

/-- Where a path leads; a path with a null character leads nowhere. -/
def locate (path : Path) : Located :=
  if path.parts.any fun name => name.toList.contains (Char.ofNat 0) then .missing
  else fs.walk (if path.absolute then [] else fs.workingDirectory) path.parts

variable {fs} {location location' : List String}

/-- The last name of a path names the entry that it leads to. -/
theorem walk_append_name {names : List String} {name : String} (hname : name ≠ "..")
    (h : fs.walk location (names ++ [name]) = .found location') :
    ∃ directory, fs.walk location names = .found directory ∧ location' = directory ++ [name] := by
  induction names generalizing location with
  | nil =>
      refine ⟨location, rfl, ?_⟩
      simp only [List.nil_append, walk, hname, if_false] at h
      split at h
      · split at h
        · simp at h
        · split at h
          · simpa using h.symm
          · simp at h
      · simp at h
  | cons first names ih =>
      simp only [List.cons_append, walk] at h ⊢
      split at h
      · split at h
        · rename_i hup
          simp only [hup, if_true]
          exact ih h
        · rename_i hup
          split at h
          · simp at h
          · rename_i hrefused
            split at h
            · rename_i hsome
              simp only [hup, hrefused, hsome, if_true, if_false]
              exact ih h
            · simp at h
      · simp at h

variable {base : Path} {text extension : String}

/-- The name that a text with an extension ends in is not `..`. -/
theorem extension_ne_up (h : Extension extension) (last : List Char) :
    String.ofList (last ++ extension.toList) ≠ ".." := by
  intro heq
  have hlong := h.long
  have hlength : (String.ofList (last ++ extension.toList)).length =
      last.length + extension.length := by simp
  have hdots : "..".length = 2 := rfl
  rw [heq, hdots] at hlength
  omega

theorem join_plain (h : Extension extension) (htext : text ≠ "") (hplain : '/' ∉ text.toList) :
    base.join (text ++ extension) = { base with parts := base.parts ++ [text ++ extension] } := by
  obtain ⟨init, last, hnames, -, hsame⟩ := names_append h text
  obtain ⟨rfl, rfl⟩ := hsame hplain
  have hrelative : (ofText (text ++ extension)).absolute = false := by
    cases htoList : text.toList with
    | nil => exact absurd (String.toList_eq_nil_iff.mp htoList) htext
    | cons c l =>
        have hc : c ≠ '/' := fun hc => hplain (by simp [htoList, hc])
        simp [ofText, String.toList_append, htoList, hc]
  rw [List.nil_append, ← String.toList_append, String.ofList_toList] at hnames
  simp [Path.join, hrelative, hnames]

/-- **A name without a slash leads to an entry of the directory.** -/
theorem locate_join (h : Extension extension) (htext : text ≠ "") (hplain : '/' ∉ text.toList)
    (hfound : fs.locate (base.join (text ++ extension)) = .found location) :
    ∃ directory, fs.locate base = .found directory ∧
      location = directory ++ [text ++ extension] := by
  have hup : text ++ extension ≠ ".." := by
    have hne := extension_ne_up h text.toList
    rwa [← String.toList_append, String.ofList_toList] at hne
  rw [join_plain h htext hplain] at hfound
  unfold locate at hfound ⊢
  split at hfound
  · simp at hfound
  · rename_i hnull
    obtain ⟨directory, hdirectory, hlocation⟩ := walk_append_name hup hfound
    refine ⟨directory, ?_, hlocation⟩
    rw [if_neg, hdirectory]
    intro hany
    apply hnull
    rw [List.any_append, hany, Bool.true_or]

/-- **A name with a slash leads to an entry with another name.** -/
theorem locate_join_slash (h : Extension extension) (hslash : '/' ∈ text.toList)
    (hfound : fs.locate (base.join (text ++ extension)) = .found location) (directory : List String)
    (name : String) (hname : text.toList <+: name.toList) : location ≠ directory ++ [name] := by
  obtain ⟨init, last, hnames, hlast, -⟩ := names_append h text
  have hparts : ∃ init', (base.join (text ++ extension)).parts =
      init' ++ [String.ofList (last ++ extension.toList)] := by
    unfold Path.join
    split
    · exact ⟨init, hnames⟩
    · refine ⟨base.parts ++ init, ?_⟩
      dsimp only
      rw [hnames, List.append_assoc]
  obtain ⟨init', hparts⟩ := hparts
  unfold locate at hfound
  split at hfound
  · simp at hfound
  · rw [hparts] at hfound
    obtain ⟨directory', -, rfl⟩ := walk_append_name (extension_ne_up h last) hfound
    intro heq
    have hsame := (List.append_inj' heq rfl).2
    have hname' : name.toList = last ++ extension.toList := by
      rw [← List.singleton_inj.mp hsame, String.toList_ofList]
    have hmem : '/' ∈ last ++ extension.toList := hname' ▸ hname.subset hslash
    rcases List.mem_append.mp hmem with hmem | hmem
    · exact hlast hmem
    · exact h.no_slash hmem

end FileSystem

end Posix
