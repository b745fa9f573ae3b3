import Mathlib.Data.List.Forall2
import XPathTaint.Proofs.NameRegexes
import XPathTaint.Proofs.WalkOrder
import XPathTaint.Scan.Preferences

-- The names in catalogs and registries. A catalog is accepted if each of its entries is a name or a
-- path of names, and whatever is merged of accepted catalogs has no other entries. So a registry
-- holds names only, from wherever its catalogs come; and one file with another entry, or that
-- cannot be read, is enough for no catalog to be loaded. Files whose names are not text are passed
-- over.

namespace XPathTaint

/-! ## Entries -/

/-- Entries as catalogs and registries have them: surfaces are identifiers, all others are paths. -/
structure AreNames (requestObjects surfaces xmlLibraries sanitizers : List String) : Prop where
  requestObjects : ∀ path ∈ requestObjects, IsDottedPath path
  surfaces : ∀ name ∈ surfaces, IsIdentifier name
  xmlLibraries : ∀ path ∈ xmlLibraries, IsDottedPath path
  sanitizers : ∀ path ∈ sanitizers, IsDottedPath path

def Catalog.HoldsNames (c : Catalog) : Prop :=
  AreNames c.requestObjects c.surfaces c.xmlLibraries c.sanitizers

def Registry.HoldsNames (r : Registry) : Prop :=
  AreNames r.requestObjects r.surfaces r.xmlLibraries r.sanitizers

/-- A file gives a catalog: it can be read, its text is a document, the document is one of a
catalog, perhaps under one key, and all entries are names. -/
def Catalog.GivenBy (t : Files.Tree) (file : String) (c : Catalog) : Prop :=
  ∃ text doc, t.readText? file = some text ∧ Yaml.Value.ofText? text = some doc ∧
    ofYaml? ((doc.get? "catalog").getD doc) = some c ∧ c.HoldsNames

/-! ## What is checked -/

/-- Two steps succeed if the first does and the second does with its result. -/
theorem except_bind_eq_ok_iff {ε α β : Type} {x : Except ε α} {f : α → Except ε β} {b : β} :
    (x >>= f) = .ok b ↔ ∃ a, x = .ok a ∧ f a = .ok b := by
  cases x <;> simp [bind, Except.bind]

namespace Catalog

theorem checkField_eq_ok_iff {field : String} {isValid : String → Bool} {entries : List String}
    {u : Unit} : checkField field isValid entries = .ok u ↔ ∀ e ∈ entries, isValid e = true := by
  unfold checkField
  cases h : entries.find? fun e => !isValid e with
  | none => simpa using h
  | some entry =>
    have hentry : isValid entry = false := by simpa using List.find?_some h
    constructor
    · nofun
    · intro hall
      rw [hall entry (List.mem_of_find?_eq_some h)] at hentry
      cases hentry

theorem validate_eq_ok_iff {c : Catalog} : c.validate = .ok () ↔ c.HoldsNames := by
  unfold validate validateBy
  simp only [except_bind_eq_ok_iff, checkField_eq_ok_iff, isDottedName_iff, isPlainName_iff,
    exists_const]
  constructor
  · rintro ⟨hobjects, hsurfaces, hlibraries, hsanitizers⟩
    exact ⟨hobjects, hsurfaces, hlibraries, hsanitizers⟩
  · rintro ⟨hobjects, hsurfaces, hlibraries, hsanitizers⟩
    exact ⟨hobjects, hsurfaces, hlibraries, hsanitizers⟩

end Catalog

/-! ## What is merged -/

theorem AreNames.extendNew {objects surfaces libraries sanitizers : List String}
    {objects' surfaces' libraries' sanitizers' : List String}
    (h : AreNames objects surfaces libraries sanitizers)
    (h' : AreNames objects' surfaces' libraries' sanitizers') :
    AreNames (extendNew objects objects') (extendNew surfaces surfaces')
      (extendNew libraries libraries') (extendNew sanitizers sanitizers') where
  requestObjects path hpath :=
    (mem_extendNew.mp hpath).elim (h.requestObjects path) (h'.requestObjects path)
  surfaces name hname := (mem_extendNew.mp hname).elim (h.surfaces name) (h'.surfaces name)
  xmlLibraries path hpath :=
    (mem_extendNew.mp hpath).elim (h.xmlLibraries path) (h'.xmlLibraries path)
  sanitizers path hpath := (mem_extendNew.mp hpath).elim (h.sanitizers path) (h'.sanitizers path)

namespace Catalog

variable {c found : Catalog}

theorem holdsNames_empty : HoldsNames empty := ⟨nofun, nofun, nofun, nofun⟩

theorem HoldsNames.merge (h : c.HoldsNames) (h' : found.HoldsNames) : (c.merge found).HoldsNames :=
  h.extendNew h'

theorem HoldsNames.foldl_merge {catalogs : List Catalog} (h : c.HoldsNames)
    (h' : ∀ found ∈ catalogs, found.HoldsNames) : (catalogs.foldl Catalog.merge c).HoldsNames := by
  induction catalogs generalizing c with
  | nil => exact h
  | cons found catalogs ih =>
    exact ih (h.merge (h' found List.mem_cons_self))
      fun next hnext => h' next (List.mem_cons_of_mem found hnext)

end Catalog

namespace Registry

/-- The built-in signatures pass the check of catalogs. -/
theorem holdsNames_builtin : HoldsNames builtin :=
  Catalog.validate_eq_ok_iff (c := ⟨_, _, _, _, none⟩).mp (by decide)

theorem holdsNames_ofCatalog {c : Catalog} (h : c.HoldsNames) : (ofCatalog c).HoldsNames :=
  holdsNames_builtin.extendNew h

end Registry

/-! ## What is read -/

namespace Catalog

variable {t : Files.Tree} {path file text : String} {c c' : Catalog} {files : List String}
  {bytes : String → ByteArray}

theorem ofText_eq_ok_iff :
    ofText text = .ok c ↔ ∃ doc, Yaml.Value.ofText? text = some doc ∧
      ofYaml? ((doc.get? "catalog").getD doc) = some c ∧ c.HoldsNames := by
  unfold ofText
  cases Yaml.Value.ofText? text with
  | none => simp
  | some doc =>
    simp only [Option.some.injEq, exists_eq_left']
    split
    · rename_i hnull
      -- An empty document has no members, and is that of the empty catalog.
      have hread : ofYaml? ((doc.get? "catalog").getD doc) = some empty := by
        simp [Yaml.Value.get?, ofYaml?, hnull]
      rw [hread, Except.ok.injEq, Option.some.injEq]
      constructor
      · rintro rfl
        exact ⟨rfl, holdsNames_empty⟩
      · exact And.left
    · cases ofYaml? ((doc.get? "catalog").getD doc) with
      | none => simp
      | some found =>
        rw [Option.some.injEq]
        dsimp only
        split
        · rename_i hvalid
          have hnames : found.HoldsNames := validate_eq_ok_iff.mp hvalid
          rw [Except.ok.injEq]
          constructor
          · rintro rfl
            exact ⟨rfl, hnames⟩
          · exact And.left
        · rename_i entry hinvalid
          constructor
          · nofun
          · rintro ⟨rfl, hnames⟩
            rw [validate_eq_ok_iff.mpr hnames] at hinvalid
            cases hinvalid

theorem givenBy_iff :
    GivenBy t file c ↔ ∃ text, t.readText? file = some text ∧ ofText text = .ok c := by
  simp only [GivenBy, ofText_eq_ok_iff, exists_and_left]

/-- A file is a catalog if its name is text with one of the endings. -/
theorem isCatalogFile_iff : isCatalogFile bytes file = true ↔
    ∃ name text, Path.fileName? file = some name ∧ String.fromUTF8? (bytes name) = some text ∧
      ∃ ending ∈ [".yaml", ".yml", ".json"], ending.toList <:+ text.toList := by
  have hnone : isCatalogName "" = false := by decide
  unfold isCatalogFile nameText?
  cases Path.fileName? file with
  | none => simp [hnone]
  | some name =>
    rw [Option.bind_some]
    cases hbytes : String.fromUTF8? (bytes name) with
    | none => simp [hnone, hbytes]
    | some text => simp [isCatalogName, hbytes]

/-- A name that is no text has no ending. -/
example : isCatalogFile (fun name => ⟨#[0xff]⟩ ++ name.toUTF8) "/names.yaml" = false := by
  decide +kernel

theorem addFile_eq_ok_iff (h : isCatalogFile bytes file = true) :
    addFile t bytes c file = .ok c' ↔ ∃ found, GivenBy t file found ∧ c' = c.merge found := by
  unfold addFile
  rw [if_pos h]
  simp only [givenBy_iff]
  cases t.readText? file with
  | none => simp
  | some text =>
    simp only [Option.some.injEq, exists_eq_left']
    cases ofText text with
    | error fault => simp
    | ok found => simp [eq_comm]

theorem addFile_of_other (h : ¬isCatalogFile bytes file = true) :
    addFile t bytes c file = .ok c := by
  unfold addFile
  rw [if_neg h]

/-- Files are added if each catalog file among them gives a catalog, and it is these catalogs that
are merged. -/
theorem foldlM_addFile_eq_ok_iff :
    files.foldlM (addFile t bytes) c = .ok c' ↔ ∃ catalogs,
      List.Forall₂ (GivenBy t) (files.filter (isCatalogFile bytes)) catalogs ∧
        c' = catalogs.foldl merge c := by
  induction files generalizing c with
  | nil =>
    rw [List.filter_nil, List.foldlM_nil]
    simp only [List.forall₂_nil_left_iff, exists_eq_left, List.foldl_nil]
    exact Except.ok.injEq c c' ▸ eq_comm
  | cons file files ih =>
    rw [List.foldlM_cons]
    by_cases h : isCatalogFile bytes file = true
    · rw [List.filter_cons_of_pos h]
      constructor
      · intro hok
        obtain ⟨next, hnext, hrest⟩ := except_bind_eq_ok_iff.mp hok
        obtain ⟨found, hfound, rfl⟩ := (addFile_eq_ok_iff h).mp hnext
        obtain ⟨catalogs, hall, rfl⟩ := ih.mp hrest
        exact ⟨found :: catalogs, .cons hfound hall, rfl⟩
      · rintro ⟨_, _ | ⟨hfound, hall⟩, rfl⟩
        rw [(addFile_eq_ok_iff h).mpr ⟨_, hfound, rfl⟩]
        exact ih.mpr ⟨_, hall, rfl⟩
    · rw [List.filter_cons_of_neg h, addFile_of_other h]
      exact ih

/-- A load of files that a walk finds. -/
theorem load_eq_ok_iff (h : t.walk? path (isHidden bytes) = some files) :
    load t path bytes = .ok c ↔ ∃ catalogs,
      List.Forall₂ (GivenBy t) (files.filter (isCatalogFile bytes)) catalogs ∧
        c = catalogs.foldl merge empty := by
  unfold load Files.Tree.foldFilesM
  rw [h]
  exact foldlM_addFile_eq_ok_iff

theorem holdsNames_of_load (h : load t path bytes = .ok c) : c.HoldsNames := by
  cases hwalk : t.walk? path (isHidden bytes) with
  | none =>
    unfold load Files.Tree.foldFilesM at h
    rw [hwalk] at h
    cases h
  | some files =>
    obtain ⟨catalogs, hall, rfl⟩ := (load_eq_ok_iff hwalk).mp h
    refine holdsNames_empty.foldl_merge fun found hfound => ?_
    obtain ⟨i, hi, rfl⟩ := List.getElem_of_mem hfound
    obtain ⟨_, _, _, _, _, hnames⟩ := hall.get (hall.length_eq.symm ▸ hi) hi
    exact hnames

/-- One catalog file that gives no catalog is enough for the load to fail. -/
theorem exists_fault_of_load (h : t.walk? path (isHidden bytes) = some files)
    (hfile : file ∈ files) (hname : isCatalogFile bytes file = true)
    (hbad : ∀ c, ¬GivenBy t file c) : ∃ fault, load t path bytes = .error fault := by
  cases hload : load t path bytes with
  | error fault => exact ⟨fault, rfl⟩
  | ok c =>
    obtain ⟨catalogs, hall, _⟩ := (load_eq_ok_iff h).mp hload
    obtain ⟨i, hi, rfl⟩ := List.getElem_of_mem (List.mem_filter.mpr ⟨hfile, hname⟩)
    exact absurd (hall.get hi (hall.length_eq ▸ hi)) (hbad _)

end Catalog

namespace Scan.Preferences

theorem holdsNames_of_load {t : Files.Tree} {env : Environment} {p : Preferences}
    (h : load t env = .ok p) : p.catalog.HoldsNames := by
  have hnone : none.catalog.HoldsNames := Catalog.holdsNames_empty
  have htext : ∀ text, ofText text = .ok p → p.catalog.HoldsNames := by
    intro text htext
    unfold ofText at htext
    split at htext
    · cases htext
    · split at htext
      · rename_i hvalid
        cases htext
        exact Catalog.validate_eq_ok_iff.mp hvalid
      · cases htext
  unfold load at h
  dsimp only at h
  split at h
  · split at h
    · exact htext _ h
    · cases h
  · cases h
    exact hnone

theorem holdsNames_of_registry {t : Files.Tree} {p : Preferences} {catalog : Option String}
    {bytes : String → ByteArray} {reg : Registry} (hp : p.catalog.HoldsNames)
    (h : p.registry t catalog bytes = .ok reg) : reg.HoldsNames := by
  have hown : (Catalog.empty.merge p.catalog).HoldsNames := Catalog.holdsNames_empty.merge hp
  cases catalog with
  | none =>
    cases h
    exact Registry.holdsNames_ofCatalog hown
  | some path =>
    obtain ⟨c, hc, hreg⟩ := except_bind_eq_ok_iff.mp h
    cases hreg
    exact Registry.holdsNames_ofCatalog (hown.merge (Catalog.holdsNames_of_load hc))

end Scan.Preferences

/-! ## The invariant -/

/-- Only names enter a registry. The two regular expressions of the check compile, and a catalog is
accepted by them exactly when its entries are names; so are those of every catalog that is loaded,
and of every registry made of it and of accepted preferences, whatever bytes the names of the files
are. A load gives the catalogs of all catalog files that a walk finds, merged in the order of the
walk, and fails when one of these files gives none. A catalog file is one whose name is text with
the ending of one. -/
theorem only_names_enter_catalogs_and_registries (lib : RegexLibrary) (hlib : lib.CompilesGroups) :
    (∃ path name, lib.compile Catalog.dottedNameRegex = some path ∧
      lib.compile Catalog.nameRegex = some name ∧ ∀ c : Catalog,
        c.validate = c.validateBy (lib.isMatch path) (lib.isMatch name) ∧
          (c.validateBy (lib.isMatch path) (lib.isMatch name) = .ok () ↔ c.HoldsNames)) ∧
    (∀ t path bytes c, Catalog.load t path bytes = .ok c → c.HoldsNames) ∧
    (∀ t env p, Scan.Preferences.load t env = .ok p → ∀ t' catalog bytes reg,
      p.registry t' catalog bytes = .ok reg → reg.HoldsNames) ∧
    (∀ t path bytes files, t.walk? path (Catalog.isHidden bytes) = some files →
      (∀ c, Catalog.load t path bytes = .ok c ↔ ∃ catalogs,
        List.Forall₂ (Catalog.GivenBy t) (files.filter (Catalog.isCatalogFile bytes)) catalogs ∧
          c = catalogs.foldl Catalog.merge .empty) ∧
      ∀ file ∈ files, Catalog.isCatalogFile bytes file = true → (∀ c, ¬Catalog.GivenBy t file c) →
        ∃ fault, Catalog.load t path bytes = .error fault) ∧
    ∀ bytes file, Catalog.isCatalogFile bytes file = true ↔ ∃ name text,
      Path.fileName? file = some name ∧ String.fromUTF8? (bytes name) = some text ∧
        ∃ ending ∈ [".yaml", ".yml", ".json"], ending.toList <:+ text.toList := by
  refine ⟨?_, fun t path bytes c => Catalog.holdsNames_of_load, ?_, ?_,
    fun bytes file => Catalog.isCatalogFile_iff⟩
  · obtain ⟨path, name, hpath, hname, hcheck⟩ := hlib.validateBy_eq
    refine ⟨path, name, hpath, hname, fun c => ?_⟩
    rw [hcheck]
    exact ⟨rfl, Catalog.validate_eq_ok_iff⟩
  · intro t env p hp t' catalog bytes reg hreg
    exact Scan.Preferences.holdsNames_of_registry (Scan.Preferences.holdsNames_of_load hp) hreg
  · intro t path bytes files hwalk
    exact ⟨fun c => Catalog.load_eq_ok_iff hwalk,
      fun file hfile hname hbad => Catalog.exists_fault_of_load hwalk hfile hname hbad⟩

/-! ### A file of names and one of others -/

open Files (Tree)

def preferenceText : String := "[catalog]\nsurfaces = [\"query\"]\n"

/-- Preferences, a catalog file of names, and one with a path where a name must stand. -/
def catalogTree : Tree :=
  ⟨.dir [(".config", .dir [("xpathguard", .dir [("config.toml", .file preferenceText.toUTF8)])]),
    ("names.yaml", .file "sanitizers: [escape]\n".toUTF8),
    ("paths.yml", .file "surfaces: [args.get]\n".toUTF8)], []⟩

theorem isProper_catalogTree : catalogTree.root.IsProper := by
  refine .dir (by decide) (by decide +kernel) ?_
  simp only [List.forall_mem_cons]
  refine ⟨.dir (by decide) (by decide +kernel) ?_, .file, .file, nofun⟩
  simp only [List.forall_mem_cons]
  refine ⟨.dir (by decide) (by decide +kernel) ?_, nofun⟩
  simpa using .file

theorem get?_catalogTree {names : List String} {text : String}
    (h : catalogTree.root.at? names = some (.file text.toUTF8)) :
    catalogTree.get? (Tree.pathOf names) = some (.file text.toUTF8) :=
  Files.get?_of_at? isProper_catalogTree rfl h fun _ => nofun

theorem readText?_catalogTree {names : List String} {text : String}
    (h : catalogTree.root.at? names = some (.file text.toUTF8)) :
    catalogTree.readText? (Tree.pathOf names) = some text := by
  unfold Tree.readText?
  rw [get?_catalogTree h]
  exact Files.fromUTF8?_toUTF8 text

theorem eq_ok_of_toOption {ε α : Type} {x : Except ε α} {a : α} (h : x.toOption = some a) :
    x = .ok a := by
  cases x with
  | error fault => cases h
  | ok found =>
    cases h
    rfl

def catalogPreferences : Scan.Preferences := ⟨none, none, ⟨[], ["query"], [], [], none⟩⟩

theorem load_catalogPreferences :
    Scan.Preferences.load catalogTree [("HOME", "/")] = .ok catalogPreferences := by
  have hpath : Scan.Preferences.filePath [("HOME", "/")] =
      Tree.pathOf [".config", "xpathguard", "config.toml"] := by decide +kernel
  have hfile : catalogTree.root.at? [".config", "xpathguard", "config.toml"] =
      some (.file preferenceText.toUTF8) := rfl
  have hread : (Scan.Preferences.ofText preferenceText).toOption = some catalogPreferences := by
    decide +kernel
  unfold Scan.Preferences.load Tree.exists?
  rw [hpath]
  dsimp only
  rw [get?_catalogTree hfile, readText?_catalogTree hfile, Option.isSome_some, if_pos rfl]
  dsimp only
  exact eq_ok_of_toOption hread

def escapeCatalog : Catalog := ⟨[], [], [], ["escape"], none⟩

theorem givenBy_catalogTree : Catalog.GivenBy catalogTree "/names.yaml" escapeCatalog := by
  have hpath : Tree.pathOf ["names.yaml"] = "/names.yaml" := by decide +kernel
  refine Catalog.givenBy_iff.mpr ⟨"sanitizers: [escape]\n", ?_, eq_ok_of_toOption ?_⟩
  · rw [← hpath]
    exact readText?_catalogTree rfl
  · decide +kernel

theorem not_givenBy_catalogTree (c : Catalog) : ¬Catalog.GivenBy catalogTree "/paths.yml" c := by
  have hpath : Tree.pathOf ["paths.yml"] = "/paths.yml" := by decide +kernel
  have htext : catalogTree.readText? (Tree.pathOf ["paths.yml"]) = some "surfaces: [args.get]\n" :=
    readText?_catalogTree rfl
  have hbad : (Catalog.ofText "surfaces: [args.get]\n").toOption = none := by decide +kernel
  rw [Catalog.givenBy_iff, ← hpath]
  rintro ⟨text, hread, hok⟩
  obtain rfl : "surfaces: [args.get]\n" = text := Option.some.inj (htext.symm.trans hread)
  rw [hok] at hbad
  cases hbad

theorem walk?_names : catalogTree.walk? "/names.yaml" (Catalog.isHidden String.toUTF8) =
    some ["/names.yaml"] := by
  have hpath : Tree.pathOf ["names.yaml"] = "/names.yaml" := by decide +kernel
  have hshown : Catalog.isHidden String.toUTF8 "/names.yaml" = false := by decide +kernel
  have hlocate : catalogTree.locate false (Tree.pathOf ["names.yaml"]) =
      .found ["names.yaml"] (.file "sanitizers: [escape]\n".toUTF8) :=
    Files.locate_of_at? isProper_catalogTree rfl rfl fun _ => nofun
  unfold Tree.walk?
  rw [hshown, if_neg Bool.false_ne_true, ← hpath, hlocate, hpath]
  simp [Files.filesBelow, hshown]

theorem only_names_enter_catalogs_and_registries_of_two_files :
    groupLibrary.CompilesGroups ∧ (∃ p reg, Scan.Preferences.load catalogTree [("HOME", "/")] = .ok p ∧
      p.registry catalogTree (some "/names.yaml") = .ok reg ∧ reg.HoldsNames ∧
      "query" ∈ reg.surfaces ∧ "escape" ∈ reg.sanitizers) ∧
    ∃ fault, Catalog.load catalogTree "/" = .error fault := by
  obtain ⟨-, -, hregistry, hload, -⟩ :=
    only_names_enter_catalogs_and_registries groupLibrary compilesGroups_groupLibrary
  refine ⟨compilesGroups_groupLibrary, ?_, ?_⟩
  · have hok : Catalog.load catalogTree "/names.yaml" = .ok (Catalog.empty.merge escapeCatalog) := by
      have hname : ["/names.yaml"].filter (Catalog.isCatalogFile String.toUTF8) =
          ["/names.yaml"] := by
        decide +kernel
      refine ((hload _ _ _ _ walk?_names).1 _).mpr ⟨[escapeCatalog], ?_, rfl⟩
      rw [hname]
      exact .cons givenBy_catalogTree .nil
    have hreg : catalogPreferences.registry catalogTree (some "/names.yaml") =
        .ok (.ofCatalog ((Catalog.empty.merge catalogPreferences.catalog).merge
          (Catalog.empty.merge escapeCatalog))) := by
      unfold Scan.Preferences.registry
      dsimp only
      rw [hok]
      rfl
    exact ⟨_, _, load_catalogPreferences, hreg,
      hregistry _ _ _ load_catalogPreferences _ _ _ _ hreg, by decide, by decide⟩
  · have hlocate : catalogTree.locate false (Tree.pathOf []) = .found [] catalogTree.root :=
      Files.locate_of_at? isProper_catalogTree rfl rfl fun _ => nofun
    have hwanted : Files.IsWanted catalogTree.root
        (fun within => Catalog.isHidden String.toUTF8 (Path.below "/" within)) ["paths.yml"] :=
      Files.isWanted_iff.mpr ⟨⟨_, rfl⟩, by decide +kernel⟩
    exact (hload _ _ _ _ (Files.walk?_of_locate hlocate)).2 "/paths.yml"
      (List.mem_map_of_mem ((Files.mem_walkNames_iff isProper_catalogTree).mpr hwanted))
      (by decide +kernel) not_givenBy_catalogTree

end XPathTaint
