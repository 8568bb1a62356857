import ModelRouter.Lib.Threads

/-!
# Records filed under fresh names

Threads draw names and file a record under the name they drew. A record is kept elsewhere once it
has been filed, and what is replayed has been kept.

* `Registry` : which calls do so, and `Registry.monitor` : what a thread owes;
* `contents` : the records on file after a log of calls;
* `kempt`, `Kempt.onFile` : while no name is drawn twice and what is replayed was kept, what a
  thread has filed or was replayed is on file.
-/

namespace Effects

/-- What a call with its reply is to a registry. -/
inductive Filing (κ ρ : Type) where
  | draw (name : κ)
  | file (record : ρ)
  | keep (record : ρ)
  | replay (record : ρ)

structure Registry (S : Sig) (κ ρ : Type) where
  name : ρ → κ
  filing : Event S → Option (Filing κ ρ)

namespace Registry

variable {S : Sig} {σ ι κ ρ : Type}

/-! ## A thread -/

/-- What a thread has of its own. -/
inductive Own (κ ρ : Type) where
  | nothing
  | drawn (name : κ)
  | filed (record : ρ)

structure Phase (κ ρ : Type) where
  own : Own κ ρ := .nothing
  replayed : List ρ := []

def Phase.after (phase : Phase κ ρ) : Option (Filing κ ρ) → Phase κ ρ
  | some (.draw name) => { phase with own := .drawn name }
  | some (.file record) => { phase with own := .filed record }
  | some (.replay record) => { phase with replayed := record :: phase.replayed }
  | some (.keep _) | none => phase

/-- A record is filed under the name that was drawn for it, and kept once it has been filed. -/
def Phase.Allows (name : ρ → κ) (phase : Phase κ ρ) : Option (Filing κ ρ) → Prop
  | some (.file record) => phase.own = .drawn (name record)
  | some (.keep record) => phase.own = .filed record
  | _ => True

/-- The thread has been replayed more, and has the same of its own. -/
structure Phase.Grows (phase phase' : Phase κ ρ) : Prop where
  own : phase'.own = phase.own
  replayed : ∀ record ∈ phase.replayed, record ∈ phase'.replayed

theorem Phase.Grows.refl (phase : Phase κ ρ) : phase.Grows phase := ⟨rfl, fun _ h => h⟩

theorem Phase.Grows.trans {phase phase' phase'' : Phase κ ρ} (h : phase.Grows phase')
    (h' : phase'.Grows phase'') :
    phase.Grows phase'' :=
  ⟨h'.own.trans h.own, fun record hrecord => h'.replayed record (h.replayed record hrecord)⟩

theorem Phase.Grows.after {phase phase' : Phase κ ρ} (h : phase.Grows phase')
    (filing : Option (Filing κ ρ)) :
    (phase.after filing).Grows (phase'.after filing) := by
  cases filing with
  | none => exact h
  | some filing =>
      cases filing with
      | draw name => exact ⟨rfl, h.replayed⟩
      | file record => exact ⟨rfl, h.replayed⟩
      | keep record => exact h
      | replay record =>
          refine ⟨h.own, fun record' hrecord' => ?_⟩
          rcases List.mem_cons.mp hrecord' with rfl | hrecord'
          · exact List.mem_cons_self
          · exact List.mem_cons_of_mem _ (h.replayed record' hrecord')

theorem Phase.Grows.allows {phase phase' : Phase κ ρ} (h : phase.Grows phase') {name : ρ → κ}
    {filing : Option (Filing κ ρ)} (hallows : phase.Allows name filing) :
      phase'.Allows name filing := by
  cases filing with
  | none => trivial
  | some filing =>
      cases filing with
      | draw name => trivial
      | file record => exact h.own.trans hallows
      | keep record => exact h.own.trans hallows
      | replay record => trivial

section Replays
variable {filing : Option (Filing κ ρ)} (h : ∀ f, filing = some f → ∃ record, f = .replay record)
include h

/-- A call that replays at most may always be made. -/
theorem Phase.allows_replay (phase : Phase κ ρ) (name : ρ → κ) : phase.Allows name filing := by
  cases filing with
  | none => trivial
  | some f =>
      obtain ⟨record, rfl⟩ := h f rfl
      trivial

theorem Phase.grows_replay (phase : Phase κ ρ) : phase.Grows (phase.after filing) := by
  cases filing with
  | none => exact .refl phase
  | some f =>
      obtain ⟨record, rfl⟩ := h f rfl
      exact ⟨rfl, fun _ hmem => List.mem_cons_of_mem _ hmem⟩

end Replays

variable (registry : Registry S κ ρ)

def monitor : Monitor S (Phase κ ρ) where
  owes phase e := ∀ reply, phase.Allows registry.name (registry.filing ⟨e, reply⟩)
  relies _ _ _ := True
  next phase e reply := phase.after (registry.filing ⟨e, reply⟩)

/-- The call is nothing to the registry, whatever the reply. -/
def Aside (e : S.Call) : Prop := ∀ reply, registry.filing ⟨e, reply⟩ = none

variable {registry}

theorem Aside.owes {e : S.Call} (h : registry.Aside e) (phase : Phase κ ρ) :
    registry.monitor.owes phase e := by
  intro reply
  rw [h reply]
  trivial

theorem Aside.next {e : S.Call} (h : registry.Aside e) (phase : Phase κ ρ) (reply : S.Reply e) :
    registry.monitor.next phase e reply = phase := by
  show phase.after (registry.filing ⟨e, reply⟩) = phase
  rw [h reply]
  rfl

/-- Calls that are nothing to the registry leave the thread where it stands. -/
theorem spec_aside {α : Type} {P : S.Call → Prop} {p : Prog S α} (h : Only P p)
    (hP : ∀ e, P e → registry.Aside e)
    (phase : Phase κ ρ) : Spec registry.monitor p (fun _ phase' => phase' = phase) phase :=
  h.spec fun e he => ⟨(hP e he).owes phase, (hP e he).next phase⟩

/-! ## All threads -/

variable (registry)

/-- The names that have been drawn, the last first. -/
def names : List (Entry S σ ι) → List κ
  | [] => []
  | entry :: log => match registry.filing entry.event with
    | some (.draw name) => name :: names log
    | _ => names log

variable [DecidableEq κ]

/-- The record on file under a name: the last one. -/
def contents : List (Entry S σ ι) → κ → Option ρ
  | [] => fun _ => none
  | entry :: log => match registry.filing entry.event with
    | some (.file record) => Function.update (contents log) (registry.name record) (some record)
    | _ => contents log

def Kept (log : List (Entry S σ ι)) (record : ρ) : Prop :=
  ∃ entry ∈ log, registry.filing entry.event = some (.keep record)

/-- Whatever was replayed had been kept. -/
def Faithful : List (Entry S σ ι) → Prop
  | [] => True
  | entry :: log => (∀ record, registry.filing entry.event = some (.replay record) → registry.Kept log record) ∧
      Faithful log

variable [DecidableEq ι]

/-- A name that was drawn is free and belongs to one thread; what a thread has filed, and what was
kept or replayed, is on file. -/
structure Kempt (log : List (Entry S σ ι)) : Prop where
  drawn : ∀ i name, (registry.monitor.phase {} i log).own = .drawn name →
    name ∈ registry.names log ∧
    registry.contents log name = none ∧
    ∀ j, (registry.monitor.phase {} j log).own = .drawn name → j = i
  named : ∀ name record, registry.contents log name = some record → name ∈ registry.names log
  filed : ∀ i record, (registry.monitor.phase {} i log).own = .filed record →
    registry.contents log (registry.name record) = some record
  kept : ∀ record, registry.Kept log record →
    registry.contents log (registry.name record) = some record
  replayed : ∀ i, ∀ record ∈ (registry.monitor.phase {} i log).replayed,
    registry.contents log (registry.name record) = some record

variable {registry} {log : List (Entry S σ ι)} {entry : Entry S σ ι}

section
omit [DecidableEq κ]

theorem phase_own : registry.monitor.phase {} entry.thread (entry :: log) =
    (registry.monitor.phase {} entry.thread log).after (registry.filing entry.event) :=
      Monitor.phase_cons_self entry log

theorem phase_other {i : ι} (h : entry.thread ≠ i) :
    registry.monitor.phase {} i (entry :: log) = registry.monitor.phase {} i log :=
      Monitor.phase_cons_of_ne h

/-- A call that moves no thread. -/
theorem phase_still (h : ∀ phase : Phase κ ρ, phase.after (registry.filing entry.event) = phase)
    (i : ι) :
    registry.monitor.phase {} i (entry :: log) = registry.monitor.phase {} i log := by
  by_cases hi : entry.thread = i
  · subst hi
    rw [phase_own, h]
  · exact phase_other hi

section
variable {own' : Own κ ρ}
  (hafter : ∀ phase : Phase κ ρ,
    phase.after (registry.filing entry.event) = { phase with own := own' })
include hafter

/-- Who has what after a call that gives its thread `own'`. -/
theorem own_cases {i : ι} {mine : Own κ ρ}
    (h : (registry.monitor.phase {} i (entry :: log)).own = mine) :
    entry.thread = i ∧ mine = own' ∨ entry.thread ≠ i ∧
    (registry.monitor.phase {} i log).own = mine := by
  by_cases hi : entry.thread = i
  · subst hi
    rw [phase_own, hafter] at h
    exact Or.inl ⟨rfl, h.symm⟩
  · rw [phase_other hi] at h
    exact Or.inr ⟨hi, h⟩

theorem replayed_eq (i : ι) :
    (registry.monitor.phase {} i (entry :: log)).replayed =
      (registry.monitor.phase {} i log).replayed := by
  by_cases hi : entry.thread = i
  · subst hi
    rw [phase_own, hafter]
  · rw [phase_other hi]

end

omit [DecidableEq ι]

theorem kept_of_cons {record : ρ}
    (hnot : ∀ record, registry.filing entry.event ≠ some (.keep record))
    (h : registry.Kept (entry :: log) record) : registry.Kept log record := by
  obtain ⟨entry', hentry', hkeep⟩ := h
  rcases List.mem_cons.mp hentry' with rfl | hentry'
  · exact absurd hkeep (hnot record)
  · exact ⟨entry', hentry', hkeep⟩

theorem nodup_names_of_cons (h : (registry.names (entry :: log)).Nodup) :
    (registry.names log).Nodup := by
  rw [names] at h
  split at h
  · exact (List.nodup_cons.mp h).2
  · exact h

theorem nodup_names_of_append {past : List (Entry S σ ι)} (later : List (Entry S σ ι))
    (h : (registry.names (later ++ past)).Nodup) : (registry.names past).Nodup := by
  induction later with
  | nil => exact h
  | cons entry later ih => exact ih (nodup_names_of_cons h)

end

theorem kempt_nil : registry.Kempt ([] : List (Entry S σ ι)) where
  drawn i name h := by cases h
  named name record h := by cases h
  filed i record h := by cases h
  kept := by
    rintro record ⟨entry, hentry, -⟩
    cases hentry
  replayed i record h := by cases h

namespace Kempt

/-- A call that draws and files nothing. -/
theorem same (h : registry.Kempt log) (hnames : registry.names (entry :: log) = registry.names log)
    (hcontents : registry.contents (entry :: log) = registry.contents log)
    (hown : ∀ i, (registry.monitor.phase {} i (entry :: log)).own =
      (registry.monitor.phase {} i log).own)
    (hkept : ∀ record, registry.filing entry.event = some (.keep record) →
      registry.contents log (registry.name record) = some record)
    (hreplayed : ∀ i, ∀ record ∈ (registry.monitor.phase {} i (entry :: log)).replayed,
      registry.contents log (registry.name record) = some record) :
        registry.Kempt (entry :: log) where
  drawn i name hdrawn := by
    rw [hown] at hdrawn
    rw [hnames, hcontents]
    obtain ⟨hname, hfree, honly⟩ := h.drawn i name hdrawn
    exact ⟨hname, hfree, fun j hj => honly j (hown j ▸ hj)⟩
  named name record hrecord := by
    rw [hcontents] at hrecord
    rw [hnames]
    exact h.named name record hrecord
  filed i record hfiled := by
    rw [hown] at hfiled
    rw [hcontents]
    exact h.filed i record hfiled
  kept := by
    rintro record ⟨entry', hentry', hkeep⟩
    rw [hcontents]
    rcases List.mem_cons.mp hentry' with rfl | hentry'
    · exact hkept record hkeep
    · exact h.kept record ⟨entry', hentry', hkeep⟩
  replayed i record hrecord := by
    rw [hcontents]
    exact hreplayed i record hrecord

theorem draw (h : registry.Kempt log) {name : κ}
    (hdraw : registry.filing entry.event = some (.draw name))
    (hfresh : name ∉ registry.names log) : registry.Kempt (entry :: log) := by
  have hnames : registry.names (entry :: log) = name :: registry.names log := by rw [names, hdraw]
  have hcontents : registry.contents (entry :: log) = registry.contents log := by
    rw [contents, hdraw]
  have hafter : ∀ phase : Phase κ ρ,
      phase.after (registry.filing entry.event) = { phase with own := .drawn name } := by
    intro phase
    rw [hdraw]
    rfl
  refine ⟨?_, ?_, ?_, ?_, ?_⟩
  · intro i name' hdrawn
    rw [hnames, hcontents]
    rcases own_cases hafter hdrawn with ⟨rfl, hmine⟩ | ⟨hi, hdrawn⟩
    · cases hmine
      refine ⟨List.mem_cons_self, ?_, fun j hj => ?_⟩
      · cases hfree : registry.contents log name with
        | none => rfl
        | some record => exact absurd (h.named name record hfree) hfresh
      · rcases own_cases hafter hj with ⟨rfl, -⟩ | ⟨-, hj⟩
        · rfl
        · exact absurd (h.drawn j name hj).1 hfresh
    · obtain ⟨hname, hfree, honly⟩ := h.drawn i name' hdrawn
      refine ⟨List.mem_cons_of_mem _ hname, hfree, fun j hj => ?_⟩
      rcases own_cases hafter hj with ⟨-, hmine⟩ | ⟨-, hj⟩
      · cases hmine
        exact absurd hname hfresh
      · exact honly j hj
  · intro name' record hrecord
    rw [hcontents] at hrecord
    rw [hnames]
    exact List.mem_cons_of_mem _ (h.named name' record hrecord)
  · intro i record hfiled
    rw [hcontents]
    rcases own_cases hafter hfiled with ⟨-, hmine⟩ | ⟨-, hfiled⟩
    · cases hmine
    · exact h.filed i record hfiled
  · intro record hkept
    rw [hcontents]
    refine h.kept record (kept_of_cons (fun record' hkeep => ?_) hkept)
    rw [hdraw] at hkeep
    cases hkeep
  · intro i record hrecord
    rw [replayed_eq hafter] at hrecord
    rw [hcontents]
    exact h.replayed i record hrecord

theorem file (h : registry.Kempt log) {record : ρ}
    (hfile : registry.filing entry.event = some (.file record))
    (howes : (registry.monitor.phase {} entry.thread log).own = .drawn (registry.name record)) :
    registry.Kempt (entry :: log) := by
  have hnames : registry.names (entry :: log) = registry.names log := by rw [names, hfile]
  have hcontents : registry.contents (entry :: log) =
      Function.update (registry.contents log) (registry.name record) (some record) := by
        rw [contents, hfile]
  have hafter : ∀ phase : Phase κ ρ,
      phase.after (registry.filing entry.event) = { phase with own := .filed record } := by
    intro phase
    rw [hfile]
    rfl
  obtain ⟨hname, hfree, honly⟩ := h.drawn entry.thread _ howes
  -- what was on file stands under another name
  have hstays : ∀ record', registry.contents log (registry.name record') = some record' →
      registry.contents (entry :: log) (registry.name record') = some record' := by
    intro record' hrecord'
    rw [hcontents, Function.update_of_ne]
    · exact hrecord'
    · intro heq
      rw [heq, hfree] at hrecord'
      cases hrecord'
  refine ⟨?_, ?_, ?_, ?_, ?_⟩
  · intro i name' hdrawn
    rw [hnames]
    rcases own_cases hafter hdrawn with ⟨-, hmine⟩ | ⟨hi, hdrawn⟩
    · cases hmine
    · obtain ⟨hname', hfree', honly'⟩ := h.drawn i name' hdrawn
      refine ⟨hname', ?_, fun j hj => ?_⟩
      · rw [hcontents, Function.update_of_ne]
        · exact hfree'
        · rintro rfl
          exact hi (honly i hdrawn).symm
      · rcases own_cases hafter hj with ⟨-, hmine⟩ | ⟨-, hj⟩
        · cases hmine
        · exact honly' j hj
  · intro name' record' hrecord'
    rw [hnames]
    by_cases hsame : name' = registry.name record
    · rw [hsame]
      exact hname
    · rw [hcontents, Function.update_of_ne hsame] at hrecord'
      exact h.named name' record' hrecord'
  · intro i record' hfiled
    rcases own_cases hafter hfiled with ⟨-, hmine⟩ | ⟨-, hfiled⟩
    · cases hmine
      rw [hcontents, Function.update_self]
    · exact hstays record' (h.filed i record' hfiled)
  · intro record' hkept
    refine hstays record' (h.kept record' (kept_of_cons (fun record'' hkeep => ?_) hkept))
    rw [hfile] at hkeep
    cases hkeep
  · intro i record' hrecord'
    rw [replayed_eq hafter] at hrecord'
    exact hstays record' (h.replayed i record' hrecord')

/-- One more call. -/
theorem cons (h : registry.Kempt log)
    (howes : registry.monitor.owes (registry.monitor.phase {} entry.thread log) entry.event.call)
    (hnames : (registry.names (entry :: log)).Nodup)
    (hfaithful : registry.Faithful (entry :: log)) :
    registry.Kempt (entry :: log) := by
  have hallows := howes entry.event.reply
  obtain ⟨hreplays, -⟩ := hfaithful
  change Phase.Allows _ _ (registry.filing entry.event) at hallows
  cases hfiling : registry.filing entry.event with
  | none =>
      have hphase : ∀ i, registry.monitor.phase {} i (entry :: log) =
          registry.monitor.phase {} i log :=
        phase_still fun phase => by
          rw [hfiling]
          rfl
      refine h.same (by rw [names, hfiling]) (by rw [contents, hfiling]) (fun i => by rw [hphase])
        (fun record hkeep => ?_)
        fun i record hrecord => h.replayed i record (hphase i ▸ hrecord)
      rw [hfiling] at hkeep
      cases hkeep
  | some filing =>
      rw [hfiling] at hallows
      cases filing with
      | draw name =>
          rw [names, hfiling] at hnames
          exact h.draw hfiling (List.nodup_cons.mp hnames).1
      | file record => exact h.file hfiling hallows
      | keep record =>
          have hphase : ∀ i, registry.monitor.phase {} i (entry :: log) =
              registry.monitor.phase {} i log :=
            phase_still fun phase => by
              rw [hfiling]
              rfl
          refine h.same (by rw [names, hfiling]) (by rw [contents, hfiling])
            (fun i => by rw [hphase]) (fun record' hkeep => ?_) fun i record hrecord =>
              h.replayed i record (hphase i ▸ hrecord)
          rw [hfiling] at hkeep
          cases hkeep
          exact h.filed entry.thread record hallows
      | replay record =>
          have hmine : registry.monitor.phase {} entry.thread (entry :: log) =
              { registry.monitor.phase {} entry.thread log with
                replayed := record :: (registry.monitor.phase {} entry.thread log).replayed } := by
            rw [phase_own, hfiling]
            rfl
          refine h.same (by rw [names, hfiling]) (by rw [contents, hfiling]) (fun i => ?_)
            (fun record' hkeep => ?_)
            fun i record' hrecord' => ?_
          · by_cases hi : entry.thread = i
            · subst hi
              rw [hmine]
            · rw [phase_other hi]
          · rw [hfiling] at hkeep
            cases hkeep
          · by_cases hi : entry.thread = i
            · subst hi
              rw [hmine] at hrecord'
              rcases List.mem_cons.mp hrecord' with rfl | hrecord'
              · exact h.kept record' (hreplays record' hfiling)
              · exact h.replayed entry.thread record' hrecord'
            · rw [phase_other hi] at hrecord'
              exact h.replayed i record' hrecord'

end Kempt

variable {m : Machine S σ} {G : σ → List (Entry S σ ι) → Prop} {s₀ s : σ}

/-- **While no name is drawn twice and what is replayed was kept, the registry is kempt.** -/
theorem kempt (h : m.Lawful registry.monitor {} G s₀ s log) (hnames : (registry.names log).Nodup)
    (hfaithful : registry.Faithful log) : registry.Kempt log := by
  induction h with
  | init => exact kempt_nil
  | tick _ _ _ ih => exact ih hnames hfaithful
  | call _ howes _ _ ih =>
      exact (ih (nodup_names_of_cons hnames) hfaithful.2).cons howes hnames hfaithful

/-- What is on file stays. -/
theorem contents_stays {later past : List (Entry S σ ι)}
    (h : m.Lawful registry.monitor {} G s₀ s (later ++ past))
    (hnames : (registry.names (later ++ past)).Nodup)
    (hfaithful : registry.Faithful (later ++ past)) {name : κ} {record : ρ}
    (hrecord : registry.contents past name = some record) :
      registry.contents (later ++ past) name = some record := by
  induction later generalizing s with
  | nil => exact hrecord
  | cons entry later ih =>
      obtain ⟨hbefore, howes, -⟩ := @Machine.Lawful.split _ _ _ _ _ _ _ _ _ _ _ [] _ entry h
      have hstood := ih hbefore (nodup_names_of_cons hnames) hfaithful.2
      have hkempt : registry.Kempt (later ++ past) :=
        kempt hbefore (nodup_names_of_cons hnames) hfaithful.2
      have hallows := howes entry.event.reply
      change Phase.Allows _ _ (registry.filing entry.event) at hallows
      by_cases hfile : ∃ record', registry.filing entry.event = some (.file record')
      · obtain ⟨record', hfile⟩ := hfile
        rw [hfile] at hallows
        have hfree := (hkempt.drawn entry.thread _ hallows).2.1
        rw [List.cons_append, contents, hfile]
        dsimp only
        rw [Function.update_of_ne]
        · exact hstood
        · rintro rfl
          rw [hfree] at hstood
          cases hstood
      · have hsame : registry.contents (entry :: (later ++ past)) =
            registry.contents (later ++ past) := by
          rw [contents]
          split
          · rename_i record' hrecord'
            exact absurd ⟨record', hrecord'⟩ hfile
          · rfl
        rw [List.cons_append, hsame]
        exact hstood

omit [DecidableEq κ] [DecidableEq ι] in
theorem Faithful.of_append {later past : List (Entry S σ ι)}
    (h : registry.Faithful (later ++ past)) : registry.Faithful past := by
  induction later with
  | nil => exact h
  | cons entry later ih => exact ih h.2

/-- What a finished thread has filed or was replayed. -/
def Vouched (phase : Phase κ ρ) (record : ρ) : Prop :=
  phase.own = .filed record ∨ record ∈ phase.replayed

omit [DecidableEq κ] in
theorem Phase.Grows.vouched {phase phase' : Phase κ ρ} (h : phase.Grows phase') {record : ρ}
    (hv : Vouched phase record) :
    Vouched phase' record := hv.imp (fun hfiled => h.own.trans hfiled) (h.replayed record)

theorem Kempt.onFile (h : registry.Kempt log) {i : ι} {record : ρ}
    (hv : Vouched (registry.monitor.phase {} i log) record) :
    registry.contents log (registry.name record) = some record := by
  rcases hv with hfiled | hreplayed
  · exact h.filed i record hfiled
  · exact h.replayed i record hreplayed

/-- What a thread has filed or was replayed is on file at any later time. -/
theorem onFile_later {later past : List (Entry S σ ι)} {s' : σ}
    (hpast : m.Lawful registry.monitor {} G s₀ s past)
    (h : m.Lawful registry.monitor {} G s₀ s' (later ++ past))
    (hnames : (registry.names (later ++ past)).Nodup)
    (hfaithful : registry.Faithful (later ++ past)) {i : ι} {record : ρ}
    (hv : Vouched (registry.monitor.phase {} i past) record) :
    registry.contents (later ++ past) (registry.name record) = some record := by
  have hkempt := kempt hpast (nodup_names_of_append later hnames) hfaithful.of_append
  exact contents_stays h hnames hfaithful (hkempt.onFile hv)

end Registry

end Effects
