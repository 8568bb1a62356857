import ModelRouter.Adapters.Loader
import ModelRouter.Domain.ModelValidation

/-!
# Policies in files

* `ConfigFiles.loadPolicy` : the policy that a file holds;
* `LocalFileRoutingPolicyRepository.resolve` : the policy of an application, from its own file or
  from the default one, with a cache of the former and a flag for the latter.

`resolveAll_iff` : the flag is set before the default policy is loaded, so a default policy that
cannot be loaded is reported once and taken for absent afterwards. `ownFile_iff` : an application's
identifier that has a slash leads to a file of another name.
-/

namespace ModelRouter
open Json Posix

/-! ## Loading a policy -/

namespace ConfigFiles

variable (files : ConfigFiles)

/-- `_load_policy`. -/
def loadPolicy (path : Path) : Except PyException RoutingPolicy := do
  let data ← files.loadStructuredFile path
  match RoutingPolicy.modelValidate files.pydantic (.object data) with
  | some policy => pure policy
  | none => .error (.configurationError
    ("Invalid routing policy at " ++ path.text ++ ": " ++
      files.validationError "RoutingPolicy" (.object data)))

end ConfigFiles

/-! ## The repository -/

structure LocalFileRoutingPolicyRepository where
  applicationsDir : Path
  defaultPolicyPath : Path
  files : ConfigFiles

/-- What a repository remembers. -/
structure PolicyCache where
  cache : List (String × RoutingPolicy) := []
  defaultPolicy : Option RoutingPolicy := none
  defaultPolicyLoaded : Bool := false

namespace LocalFileRoutingPolicyRepository

/-- `_EXTENSIONS`. -/
def extensions : List String := [".yaml", ".yml", ".json"]

variable (repository : LocalFileRoutingPolicyRepository)

/-- The first candidate that exists. -/
def findCandidate (applicationId : String) : List String → Except PyException (Option Path)
  | [] => .ok none
  | extension :: extensions => do
    let candidate := repository.applicationsDir.join (applicationId ++ extension)
    if ← repository.files.pathExists candidate then pure (some candidate)
      else findCandidate applicationId extensions

/-- `_find_application_policy_file`. -/
def findApplicationPolicyFile (applicationId : String) : Except PyException (Option Path) :=
  repository.findCandidate applicationId extensions

/-- The default policy as its file has it. -/
def readDefaultPolicy : Except PyException (Option RoutingPolicy) := do
  if ← repository.files.pathExists repository.defaultPolicyPath then
    let policy ← repository.files.loadPolicy repository.defaultPolicyPath
    pure (some policy)
  else pure none

/-- `_load_default_policy`. -/
def loadDefaultPolicy (s : PolicyCache) : Except PyException (Option RoutingPolicy) × PolicyCache :=
  if s.defaultPolicyLoaded then (.ok s.defaultPolicy, s)
  else
    let s := { s with defaultPolicyLoaded := true }
    match repository.readDefaultPolicy with
    | .error x => (.error x, s)
    | .ok none => (.ok s.defaultPolicy, s)
    | .ok (some policy) => (.ok (some policy), { s with defaultPolicy := some policy })

def resolve (applicationId : String) (s : PolicyCache) :
    Except PyException RoutingPolicy × PolicyCache :=
  match s.cache.find? (·.1 = applicationId) with
  | some entry => (.ok entry.2, s)
  | none => match repository.findApplicationPolicyFile applicationId with
    | .error x => (.error x, s)
    | .ok (some path) => match repository.files.loadPolicy path with
      | .error x => (.error x, s)
      | .ok policy => (.ok policy, { s with cache := (applicationId, policy) :: s.cache })
    | .ok none => match repository.loadDefaultPolicy s with
      | (.error x, s) => (.error x, s)
      | (.ok none, s) => (.error (.routingPolicyNotFoundError applicationId), s)
      | (.ok (some policy), s) => (.ok policy, s)

/-- The outcomes of a sequence of calls. -/
def resolveAll : List String → PolicyCache → List (Except PyException RoutingPolicy)
  | [], _ => []
  | applicationId :: applicationIds, s =>
    (repository.resolve applicationId s).1 :: resolveAll applicationIds
      (repository.resolve applicationId s).2

/-! ## What a policy's file may raise -/

/-- An exception of the loader, which does not say that there is no policy. -/
def IsLoadError : PyException → Prop
  | .routingPolicyNotFoundError _ => False
  | _ => True

theorem bind_eq_error {α β : Type} {m : Except PyException α} {f : α → Except PyException β}
    {x : PyException}
    (h : m >>= f = .error x) : m = .error x ∨ ∃ a, m = .ok a ∧ f a = .error x := by
  cases m with
  | error y => exact .inl (by simpa [Bind.bind, Except.bind] using h)
  | ok a => exact .inr ⟨a, rfl, h⟩

variable {files : ConfigFiles} {path : Path} {x : PyException}

theorem pathExists_error (h : files.pathExists path = .error x) : IsLoadError x := by
  unfold ConfigFiles.pathExists at h
  split at h
  · simp at h
  · obtain rfl := Except.error.inj h
    trivial
  · simp at h

theorem readText_error (h : files.readText path = .error x) : IsLoadError x := by
  unfold ConfigFiles.readText at h
  cases hopen : files.openText path with
  | ok text => simp [hopen, Except.mapError] at h
  | error y =>
      have hname : ∃ name, y = .other name := by
        unfold ConfigFiles.openText at hopen
        split at hopen
        · split at hopen
          · simp at hopen
          · exact ⟨_, (Except.error.inj hopen).symm⟩
          · exact ⟨_, (Except.error.inj hopen).symm⟩
        · exact ⟨_, (Except.error.inj hopen).symm⟩
      obtain ⟨name, rfl⟩ := hname
      rw [hopen] at h
      obtain rfl := Except.error.inj h
      dsimp only
      split <;> trivial

theorem mapError_error {α : Type} {m : Except String α} {message : String → String}
    (h : (m.mapError fun exc => PyException.configurationError (message exc)) = .error x) :
      IsLoadError x := by
  cases m with
  | error exc =>
      obtain rfl := Except.error.inj h
      trivial
  | ok a => simp [Except.mapError] at h

theorem parse_error {text : String} (h : files.parse path text = .error x) : IsLoadError x := by
  unfold ConfigFiles.parse at h
  split at h
  · exact mapError_error h
  · split at h
    · exact mapError_error h
    · obtain rfl := Except.error.inj h
      trivial

theorem loadStructuredFile_error (h : files.loadStructuredFile path = .error x) :
    IsLoadError x := by
  obtain h | ⟨text, -, h⟩ := bind_eq_error h
  · exact readText_error h
  · obtain h | ⟨data, -, h⟩ := bind_eq_error h
    · exact parse_error h
    · split at h
      · simp [pure, Except.pure] at h
      · obtain rfl := Except.error.inj h
        trivial

theorem loadPolicy_error (h : files.loadPolicy path = .error x) : IsLoadError x := by
  obtain h | ⟨data, -, h⟩ := bind_eq_error h
  · exact loadStructuredFile_error h
  · split at h
    · simp [pure, Except.pure] at h
    · obtain rfl := Except.error.inj h
      trivial

variable {repository}

theorem readDefaultPolicy_error (h : repository.readDefaultPolicy = .error x) : IsLoadError x := by
  obtain h | ⟨found, -, h⟩ := bind_eq_error h
  · exact pathExists_error h
  · split at h
    · obtain h | ⟨policy, -, h⟩ := bind_eq_error h
      · exact loadPolicy_error h
      · simp [pure, Except.pure] at h
    · simp [pure, Except.pure] at h

/-! ## History -/

/-- What the files say of an application's policy. -/
def outcome (repository : LocalFileRoutingPolicyRepository) (applicationId : String) :
    Except PyException RoutingPolicy :=
  match repository.findApplicationPolicyFile applicationId with
  | .error x => .error x
  | .ok (some path) => repository.files.loadPolicy path
  | .ok none => match repository.readDefaultPolicy with
    | .error x => .error x
    | .ok none => .error (.routingPolicyNotFoundError applicationId)
    | .ok (some policy) => .ok policy

/-- There is no file for the application, which leaves the default policy. -/
def reachesDefault (repository : LocalFileRoutingPolicyRepository) (applicationId : String) :
    Bool :=
  repository.findApplicationPolicyFile applicationId = .ok none

/-- What is remembered is what the files hold; a default policy that could not be loaded is
remembered as none. -/
structure Remembers (repository : LocalFileRoutingPolicyRepository) (s : PolicyCache) : Prop where
  cached : ∀ entry ∈ s.cache, ∃ path,
    repository.findApplicationPolicyFile entry.1 = .ok (some path) ∧
    repository.files.loadPolicy path = .ok entry.2
  fresh : s.defaultPolicyLoaded = false → s.defaultPolicy = none
  loaded : s.defaultPolicyLoaded = true →
    s.defaultPolicy = (repository.readDefaultPolicy.toOption).join

variable {applicationId : String} {s : PolicyCache}

theorem remembers_empty : Remembers repository {} where
  cached := by simp
  fresh := by simp
  loaded := by simp

/-- The default policy of a repository that has not looked for it. -/
theorem loadDefaultPolicy_fresh (h : Remembers repository s)
    (hfresh : s.defaultPolicyLoaded = false) :
    repository.loadDefaultPolicy s = (repository.readDefaultPolicy,
      { s with defaultPolicy := (repository.readDefaultPolicy.toOption).join, defaultPolicyLoaded := true }) := by
  have hnone := h.fresh hfresh
  unfold loadDefaultPolicy
  rw [if_neg (by simp [hfresh])]
  dsimp only
  split
  · rename_i x hx
    simp [hx, Except.toOption, hnone]
  · rename_i hx
    simp [hx, Except.toOption, hnone]
  · rename_i policy hx
    simp [hx, Except.toOption]

theorem loadDefaultPolicy_loaded (h : Remembers repository s)
    (hloaded : s.defaultPolicyLoaded = true) :
    repository.loadDefaultPolicy s = (.ok (repository.readDefaultPolicy.toOption).join, s) := by
  unfold loadDefaultPolicy
  rw [if_pos hloaded, h.loaded hloaded]

theorem reachesDefault_iff :
    reachesDefault repository applicationId = true ↔
    repository.findApplicationPolicyFile applicationId = .ok none :=
  decide_eq_true_iff

/-- A call for an application with a file of its own. -/
theorem resolve_file (h : Remembers repository s)
    (hfile : reachesDefault repository applicationId = false) :
    (repository.resolve applicationId s).1 = outcome repository applicationId ∧
      Remembers repository (repository.resolve applicationId s).2 ∧
      (repository.resolve applicationId s).2.defaultPolicyLoaded = s.defaultPolicyLoaded := by
  unfold resolve outcome
  split
  · rename_i entry hentry
    obtain ⟨path, hpath, hpolicy⟩ := h.cached entry (List.mem_of_find?_eq_some hentry)
    have hname := List.find?_some hentry
    simp only [decide_eq_true_eq] at hname
    rw [hname] at hpath
    simp only [hpath, hpolicy]
    exact ⟨trivial, h, trivial⟩
  · split
    · exact ⟨rfl, h, rfl⟩
    · rename_i path hpath
      cases hpolicy : repository.files.loadPolicy path with
      | error x => exact ⟨rfl, h, rfl⟩
      | ok policy =>
          refine ⟨rfl, { h with cached := ?_ }, rfl⟩
          intro entry hentry
          rcases List.mem_cons.mp hentry with rfl | hentry
          · exact ⟨path, hpath, hpolicy⟩
          · exact h.cached entry hentry
    · rename_i hnone
      simp [reachesDefault, hnone] at hfile

/-- A call for an application without one is not in the cache. -/
theorem resolve_default (h : Remembers repository s)
    (hnone : reachesDefault repository applicationId = true) :
    repository.resolve applicationId s = match repository.loadDefaultPolicy s with
      | (.error x, s) => (.error x, s)
      | (.ok none, s) => (.error (.routingPolicyNotFoundError applicationId), s)
      | (.ok (some policy), s) => (.ok policy, s) := by
  rw [reachesDefault_iff] at hnone
  have hcache : s.cache.find? (·.1 = applicationId) = none := by
    rw [List.find?_eq_none]
    intro entry hentry hname
    obtain ⟨path, hpath, -⟩ := h.cached entry hentry
    rw [decide_eq_true_eq.mp hname, hnone] at hpath
    simp at hpath
  unfold resolve
  simp only [hcache, hnone]

/-- The first call that needs the default policy loads it. -/
theorem resolve_first (h : Remembers repository s) (hnone : reachesDefault repository applicationId = true)
    (hfresh : s.defaultPolicyLoaded = false) :
    (repository.resolve applicationId s).1 = outcome repository applicationId ∧
      Remembers repository (repository.resolve applicationId s).2 ∧
      (repository.resolve applicationId s).2.defaultPolicyLoaded = true := by
  rw [resolve_default h hnone, loadDefaultPolicy_fresh h hfresh]
  have hremembers : Remembers repository
      { s with defaultPolicy := (repository.readDefaultPolicy.toOption).join, defaultPolicyLoaded := true } :=
    ⟨h.cached, by simp, by simp⟩
  unfold outcome
  rw [reachesDefault_iff.mp hnone]
  dsimp only
  cases hread : repository.readDefaultPolicy with
  | error x =>
      rw [hread] at hremembers
      exact ⟨rfl, hremembers, rfl⟩
  | ok policy =>
      rw [hread] at hremembers
      cases policy with
      | none => exact ⟨rfl, hremembers, rfl⟩
      | some policy => exact ⟨rfl, hremembers, rfl⟩

/-- Every later one answers what is remembered. -/
theorem resolve_later (h : Remembers repository s)
    (hnone : reachesDefault repository applicationId = true)
    (hloaded : s.defaultPolicyLoaded = true) :
    ((repository.resolve applicationId s).1 = outcome repository applicationId ↔
        ∃ policy, repository.readDefaultPolicy = .ok policy) ∧
      (repository.resolve applicationId s).2 = s := by
  rw [resolve_default h hnone, loadDefaultPolicy_loaded h hloaded]
  unfold outcome
  rw [reachesDefault_iff.mp hnone]
  dsimp only
  cases hread : repository.readDefaultPolicy with
  | error x =>
      have hload := readDefaultPolicy_error hread
      have hne : PyException.routingPolicyNotFoundError applicationId ≠ x := by
        intro hx
        rw [← hx] at hload
        exact hload
      simp [Except.toOption, hne]
  | ok policy =>
      cases policy with
      | none => simp [Except.toOption]
      | some policy => simp [Except.toOption]

theorem outcome_eq_resolve :
    (repository.resolve applicationId {}).1 = outcome repository applicationId := by
  cases hdefault : reachesDefault repository applicationId with
  | false => exact (resolve_file remembers_empty hdefault).1
  | true => exact (resolve_first remembers_empty hdefault rfl).1

/-- A run answers what the files say if the default policy can be read, or is needed at most
once. -/
theorem resolveAll_eq_outcome {applicationIds : List String} (h : Remembers repository s) :
    repository.resolveAll applicationIds s = applicationIds.map (outcome repository) ↔
      (∃ policy, repository.readDefaultPolicy = .ok policy) ∨
        applicationIds.countP (reachesDefault repository) + s.defaultPolicyLoaded.toNat ≤ 1 := by
  induction applicationIds generalizing s with
  | nil =>
      have hle := Bool.toNat_le s.defaultPolicyLoaded
      simp [resolveAll, hle]
  | cons applicationId applicationIds ih =>
      rw [resolveAll, List.map_cons, List.cons.injEq]
      cases hdefault : reachesDefault repository applicationId with
      | false =>
          obtain ⟨hsame, hremembers, hflag⟩ := resolve_file h hdefault
          rw [ih hremembers, hflag, List.countP_cons_of_neg (by simp [hdefault])]
          exact and_iff_right hsame
      | true =>
          rw [List.countP_cons_of_pos hdefault]
          cases hflag : s.defaultPolicyLoaded with
          | false =>
              obtain ⟨hsame, hremembers, hloaded⟩ := resolve_first h hdefault hflag
              rw [ih hremembers, hloaded]
              exact and_iff_right hsame
          | true =>
              obtain ⟨hsame, hstate⟩ := resolve_later h hdefault hflag
              rw [hsame, hstate, ih h, hflag]
              simp only [Bool.toNat_true]
              constructor
              · rintro ⟨hread, -⟩
                exact .inl hread
              · rintro (hread | hcount)
                · exact ⟨hread, .inl hread⟩
                · omega

/-- **Resolution depends on its history exactly when the default policy cannot be read and is needed
twice.** -/
theorem resolveAll_iff (repository : LocalFileRoutingPolicyRepository)
    (applicationIds : List String) :
    repository.resolveAll applicationIds {} =
        applicationIds.map (fun applicationId => (repository.resolve applicationId {}).1) ↔
      (∃ policy, repository.readDefaultPolicy = .ok policy) ∨
        applicationIds.countP (reachesDefault repository) ≤ 1 := by
  have hfresh : (fun applicationId => (repository.resolve applicationId {}).1) =
      outcome repository :=
    funext fun applicationId => outcome_eq_resolve
  rw [hfresh]
  exact resolveAll_eq_outcome remembers_empty

/-! ## The file of an application -/

/-- The file of an application is an entry of the directory that has its name, with an extension. -/
def OwnFile (repository : LocalFileRoutingPolicyRepository) (applicationId : String) : Prop :=
  ∀ path location, repository.findApplicationPolicyFile applicationId = .ok (some path) →
    repository.files.fs.locate path = .found location →
      ∃ directory, repository.files.fs.locate repository.applicationsDir = .found directory ∧
        ∃ extension ∈ extensions, location = directory ++ [applicationId ++ extension]

/-- A candidate leads to an entry, and those before it to nothing. -/
structure Leads (repository : LocalFileRoutingPolicyRepository) (applicationId : String)
    (earlier : List String) (extension : String) (location : List String) : Prop where
  found : repository.files.fs.locate (repository.applicationsDir.join (applicationId ++ extension))
    = .found location
  missing : ∀ other ∈ earlier,
    repository.files.fs.locate (repository.applicationsDir.join (applicationId ++ other)) = .missing

/-- Some candidate is there. -/
def HasFile (repository : LocalFileRoutingPolicyRepository) (applicationId : String) : Prop :=
  ∃ earlier extension later location, extensions = earlier ++ extension :: later ∧
    repository.Leads applicationId earlier extension location

theorem extensions_wellFormed : ∀ extension ∈ extensions, Extension extension := by
  simp only [extensions, List.forall_mem_cons]
  exact ⟨⟨by decide, by decide⟩, ⟨by decide, by decide⟩, ⟨by decide, by decide⟩, by simp⟩

theorem pathExists_iff :
    files.pathExists path = .ok true ↔ ∃ location, files.fs.locate path = .found location := by
  unfold ConfigFiles.pathExists
  split <;> simp_all

theorem pathExists_eq_false :
    files.pathExists path = .ok false ↔ files.fs.locate path = .missing := by
  unfold ConfigFiles.pathExists
  split <;> simp_all

theorem findCandidate_iff {candidates : List String} :
    repository.findCandidate applicationId candidates = .ok (some path) ↔
    ∃ earlier extension later location, candidates = earlier ++ extension :: later ∧
      path = repository.applicationsDir.join (applicationId ++ extension) ∧
      repository.Leads applicationId earlier extension location := by
  induction candidates with
  | nil => simp [findCandidate]
  | cons first candidates ih =>
      simp only [findCandidate]
      cases hexists : repository.files.pathExists
        (repository.applicationsDir.join (applicationId ++ first)) with
      | error x =>
          constructor
          · intro h
            simp [Bind.bind, Except.bind] at h
          · rintro ⟨earlier, extension, later, location, hcandidates, -, hleads⟩
            cases earlier with
            | nil =>
                obtain ⟨rfl, -⟩ := List.cons.inj hcandidates
                rw [pathExists_iff.mpr ⟨location, hleads.found⟩] at hexists
                simp at hexists
            | cons other earlier =>
                obtain ⟨rfl, -⟩ := List.cons.inj hcandidates
                rw [pathExists_eq_false.mpr (hleads.missing _ List.mem_cons_self)] at hexists
                simp at hexists
      | ok found =>
          cases found with
          | true =>
              obtain ⟨location, hlocation⟩ := pathExists_iff.mp hexists
              simp only [Bind.bind, Except.bind, if_true, pure, Except.pure, Except.ok.injEq,
                Option.some.injEq]
              constructor
              · rintro rfl
                exact ⟨[], first, candidates, location, rfl, rfl, hlocation, by simp⟩
              · rintro ⟨earlier, extension, later, entry, hcandidates, rfl, hleads⟩
                cases earlier with
                | nil => rw [(List.cons.inj hcandidates).1]
                | cons other earlier =>
                    obtain ⟨rfl, -⟩ := List.cons.inj hcandidates
                    have hmissing := hleads.missing _ List.mem_cons_self
                    rw [hlocation] at hmissing
                    simp at hmissing
          | false =>
              have hmissing := pathExists_eq_false.mp hexists
              simp only [Bind.bind, Except.bind, Bool.false_eq_true, if_false]
              rw [ih]
              constructor
              · rintro ⟨earlier, extension, later, location, rfl, hpath, hleads⟩
                refine ⟨first :: earlier, extension, later, location, rfl, hpath, hleads.found, ?_⟩
                exact List.forall_mem_cons.mpr ⟨hmissing, hleads.missing⟩
              · rintro ⟨earlier, extension, later, location, hcandidates, hpath, hleads⟩
                cases earlier with
                | nil =>
                    obtain ⟨rfl, -⟩ := List.cons.inj hcandidates
                    rw [hleads.found] at hmissing
                    simp at hmissing
                | cons other earlier =>
                    obtain ⟨rfl, rfl⟩ := List.cons.inj hcandidates
                    have hearlier := (List.forall_mem_cons.mp hleads.missing).2
                    exact ⟨earlier, extension, later, location, rfl, hpath, hleads.found, hearlier⟩

/-- A name without a slash has its own file. -/
theorem ownFile_plain (hname : applicationId ≠ "") (hplain : '/' ∉ applicationId.toList) :
    OwnFile repository applicationId := by
  intro path location hpath hlocation
  obtain ⟨earlier, extension, later, -, hextensions, rfl, -⟩ := findCandidate_iff.mp hpath
  have hmem : extension ∈ extensions := by simp [hextensions]
  obtain ⟨directory, hdirectory, hentry⟩ :=
    FileSystem.locate_join (extensions_wellFormed extension hmem) hname hplain hlocation
  exact ⟨directory, hdirectory, extension, hmem, hentry⟩

/-- A name with a slash has none. -/
theorem ownFile_slash (hslash : '/' ∈ applicationId.toList) :
    OwnFile repository applicationId ↔ ¬ repository.HasFile applicationId := by
  constructor
  · rintro hown ⟨earlier, extension, later, location, hextensions, hleads⟩
    obtain ⟨directory, -, other, -, hlocation⟩ := hown _ location
      (findCandidate_iff.mpr ⟨earlier, extension, later, location, hextensions, rfl, hleads⟩)
        hleads.found
    have hmem : extension ∈ extensions := by simp [hextensions]
    apply FileSystem.locate_join_slash (extensions_wellFormed extension hmem) hslash
      hleads.found directory
      (applicationId ++ other) ?_ hlocation
    rw [String.toList_append]
    exact List.prefix_append _ _
  · intro hnone path location hpath
    obtain ⟨earlier, extension, later, found, hextensions, -, hleads⟩ := findCandidate_iff.mp hpath
    exact absurd ⟨earlier, extension, later, found, hextensions, hleads⟩ hnone

/-- The last three characters tell the extensions apart. -/
theorem extension_eq {extension extension' name name' : String} (hmem : extension ∈ extensions)
    (hmem' : extension' ∈ extensions) (h : name ++ extension = name' ++ extension') :
      name = name' := by
  have hending : ∀ (name : String), ∀ extension ∈ extensions,
      (name ++ extension).toList.reverse.take 3 = extension.toList.reverse.take 3 := by
    intro name extension hmem
    have hlong := (extensions_wellFormed extension hmem).long
    rw [String.toList_append, List.reverse_append, List.take_append_of_le_length]
    rw [List.length_reverse, String.length_toList]
    omega
  have hsame : extension.toList.reverse.take 3 = extension'.toList.reverse.take 3 := by
    rw [← hending name extension hmem, ← hending name' extension' hmem', h]
  have hdistinct : ∀ extension ∈ extensions, ∀ extension' ∈ extensions,
      extension.toList.reverse.take 3 = extension'.toList.reverse.take 3 →
      extension = extension' := by decide
  rw [hdistinct extension hmem extension' hmem' hsame] at h
  exact String.append_left_inj _ |>.mp h

/-- Two applications read one file. -/
def Share (repository : LocalFileRoutingPolicyRepository) (applicationId applicationId' : String) :
    Prop :=
  ∃ path path' location, repository.findApplicationPolicyFile applicationId = .ok (some path) ∧
    repository.findApplicationPolicyFile applicationId' = .ok (some path') ∧
    repository.files.fs.locate path = .found location ∧
    repository.files.fs.locate path' = .found location

theorem share_eq {applicationId' : String} (hown : OwnFile repository applicationId)
    (hown' : OwnFile repository applicationId')
    (h : Share repository applicationId applicationId') :
    applicationId = applicationId' := by
  obtain ⟨path, path', location, hpath, hpath', hlocation, hlocation'⟩ := h
  obtain ⟨directory, -, extension, hmem, hentry⟩ := hown path location hpath hlocation
  obtain ⟨directory', -, extension', hmem', hentry'⟩ := hown' path' location hpath' hlocation'
  rw [hentry] at hentry'
  exact extension_eq hmem hmem' (List.singleton_inj.mp (List.append_inj' hentry' rfl).2)

/-- **An application has its own file exactly if its name has no slash, or leads nowhere**, and
applications that have their own do not share one. -/
theorem ownFile_iff (repository : LocalFileRoutingPolicyRepository) (applicationId : String)
    (h : isBlank applicationId = false) :
    (OwnFile repository applicationId ↔ '/' ∉ applicationId.toList ∨
      ¬ repository.HasFile applicationId) ∧
      ∀ applicationId', OwnFile repository applicationId → OwnFile repository applicationId' →
        Share repository applicationId applicationId' → applicationId = applicationId' := by
  have hname : applicationId ≠ "" := by
    rintro rfl
    simp [isBlank] at h
  refine ⟨?_, fun applicationId' => share_eq⟩
  by_cases hslash : '/' ∈ applicationId.toList
  · rw [ownFile_slash hslash]
    simp [hslash]
  · exact iff_of_true (ownFile_plain hname hslash) (.inl hslash)

end LocalFileRoutingPolicyRepository

/-! ## A default policy and one other -/

namespace Scenario

/-- `policies/default_policy.yaml` has a text, and `policies/applications` has one file,
`app.yaml`. -/
def policies (defaultPolicy : String) : LocalFileRoutingPolicyRepository where
  applicationsDir := ofText "policies/applications"
  defaultPolicyPath := ofText "policies/default_policy.yaml"
  files :=
    { fs := .ofEntries [[], ["policies"], ["policies", "applications"]]
        [(["policies", "default_policy.yaml"], some defaultPolicy),
          (["policies", "applications", "app.yaml"], some "")]
      yamlSafeLoad := fun text => if text = "" then .ok .null else .error "not a plain text"
      jsonLoads := fun _ => .error "Expecting value"
      pydantic := .strict
      osError := fun _ => ""
      validationError := fun _ _ => "" }

open LocalFileRoutingPolicyRepository

/-- An empty default policy is reported to the first application, and is no default policy for the
second one. -/
theorem empty_default_forgotten : (policies "").resolveAll ["first", "second"] {} ≠
    ["first", "second"].map fun applicationId => ((policies "").resolve applicationId {}).1 := by
  decide +kernel

/-- The application's identifier leads to the default policy, outside the directory. -/
theorem traversal_not_own : ¬ OwnFile (policies "") "../default_policy" := by
  intro hown
  obtain ⟨directory, hdirectory, extension, hmem, hlocation⟩ := hown
    ((policies "").applicationsDir.join "../default_policy.yaml") ["policies",
      "default_policy.yaml"]
    (by decide +kernel) (by decide +kernel)
  have happlications : (policies "").files.fs.locate (policies "").applicationsDir =
      .found ["policies", "applications"] := by decide +kernel
  rw [happlications] at hdirectory
  obtain rfl := Located.found.inj hdirectory
  simp at hlocation

/-- The file of `app` is found, and is its own. -/
theorem plain_own : isBlank "app" = false ∧ OwnFile (policies "") "app" ∧
    ∃ path, (policies "").findApplicationPolicyFile "app" = .ok (some path) ∧
      (policies "").files.fs.locate path = .found ["policies", "applications", "app.yaml"] :=
  ⟨by decide, (ownFile_iff (policies "") "app" (by decide)).1.mpr (.inl (by decide)),
    (policies "").applicationsDir.join "app.yaml", by decide +kernel, by decide +kernel⟩

end Scenario

end ModelRouter
