import Overland.Settings.DataFolders
import Overland.Proofs.Settings.Lookup

/-!
# Which folder a kind of data lies in

A folder is named by the kind's own key, or it is the kind's place in the common folder.  Either is
looked up in the environment first and then in the text, and the two levels differ in what counts as
nothing: a variable that is set hides the text's assignment even if it is blank, while a blank value
of the own key lets the common folder through.

* `resolved_folder?` — what becomes of the two values that matter;
* `folder?_others` — the keys of the other kinds are not among these;
* `load_eq_ok_iff` — when a settings file names enough folders;
* `folders_by_precedence` — all of it, for a text, a mark and an environment.
-/

namespace Overland

open Text

/-- The folder of a kind. -/
def DataFolders.folder (folders : DataFolders) : DataKind → Option String
  | .tiles => folders.tiles
  | .collision => folders.collision
  | .meshes => folders.meshes

namespace Settings

variable {environment environment' : Environment} {mark text text' key : String} {kind : DataKind}

/-- A value without the blank characters around it. -/
def trimmed (value : String) : String := String.ofList (trim value.toList)

theorem nonBlank?_of_blank {value : String} (h : AllBlank value.toList) :
    nonBlank? value = none := by
  rw [nonBlank?, trim_eq_nil_iff.2 h]

theorem nonBlank?_of_not_blank {value : String} (h : ¬ AllBlank value.toList) :
    nonBlank? value = some (trimmed value) := by
  rw [nonBlank?, trimmed]
  split
  · next hnil => exact absurd (trim_eq_nil_iff.1 hnil) h
  · rfl

/-- What becomes of what is seen of the keys: the own one, then the common one, unless blank. -/
inductive Resolved (sees : String → String) (kind : DataKind) : Option String → Prop where
  | own (h : ¬ AllBlank (sees kind.key).toList) :
      Resolved sees kind (some (trimmed (sees kind.key)))
  | common (hown : AllBlank (sees kind.key).toList)
      (h : ¬ AllBlank (sees commonFolderKey).toList) :
      Resolved sees kind (some (joinPath (trimmed (sees commonFolderKey)) kind.subfolder))
  | none (hown : AllBlank (sees kind.key).toList) (h : AllBlank (sees commonFolderKey).toList) :
      Resolved sees kind none

/-- **Where a folder comes from.** -/
theorem resolved_folder? (environment : Environment) (s : Settings) (kind : DataKind) :
    Resolved (s.look environment) kind (s.folder? environment kind) := by
  rw [folder?]
  by_cases hown : AllBlank (s.look environment kind.key).toList
  · by_cases hcommon : AllBlank (s.look environment commonFolderKey).toList
    · rw [nonBlank?_of_blank hown, nonBlank?_of_blank hcommon]
      exact .none hown hcommon
    · rw [nonBlank?_of_blank hown, nonBlank?_of_not_blank hcommon]
      exact .common hown hcommon
  · rw [nonBlank?_of_not_blank hown]
    exact .own hown

/-! ## The keys of the other kinds -/

/-- The key of none of the other kinds. -/
def Spares (kind : DataKind) (key : String) : Prop := ∀ other, other ≠ kind → key ≠ other.key

/-- The variable of none of the other kinds. -/
def SparesVariable (mark : String) (kind : DataKind) (name : String) : Prop :=
  ∀ other, other ≠ kind → name ≠ variableName mark other.key

theorem spares_key (kind : DataKind) : Spares kind kind.key := by
  intro other hother
  cases kind <;> cases other <;> first | exact absurd rfl hother | decide

theorem spares_common (kind : DataKind) : Spares kind commonFolderKey := by
  intro other _
  cases other <;> decide

/-- Different keys without a dot have different variables. -/
theorem variableName_ne {other : String} (h : key ≠ other) (hkey : '.' ∉ key.toList)
    (hother : '.' ∉ other.toList) : variableName mark key ≠ variableName mark other := by
  have hsame : ∀ {name : String}, '.' ∉ name.toList →
      (name.toList.map fun c => if c = '.' then '_' else c) = name.toList := by
    intro name hname
    have hkept : ∀ c ∈ name.toList, (if c = '.' then '_' else c) = id c :=
      fun c hc => if_neg fun hdot : c = '.' => hname (hdot ▸ hc)
    exact (List.map_congr_left hkept).trans (List.map_id _)
  -- Dots become underscores, so only keys without one are told apart by their variables.
  intro heq
  have hlist := congrArg String.toList heq
  simp only [variableName, hsame hkey, hsame hother, String.toList_append, String.toList_ofList,
    List.append_cancel_left_eq] at hlist
  exact h (String.toList_inj.1 hlist)

theorem Spares.variableName (h : Spares kind key) (hkey : '.' ∉ key.toList) :
    SparesVariable mark kind (variableName mark key) := by
  intro other hother
  exact variableName_ne (h other hother) hkey (by cases other <;> decide)

/-- **The other kinds do not matter:** neither what the text assigns to their keys nor their
variables. -/
theorem folder?_others
    (hvariables : ∀ name, SparesVariable mark kind name → environment' name = environment name)
    (htext : ∀ key, Spares kind key → assigned? text' key = assigned? text key) (s s' : Settings) :
    ((s'.setMark mark).parse text').folder? environment' kind =
      ((s.setMark mark).parse text).folder? environment kind := by
  have hown := look_congr (hvariables _ ((spares_key kind).variableName (by cases kind <;> decide)))
    (htext _ (spares_key kind)) s s'
  have hcommon := look_congr (hvariables _ ((spares_common kind).variableName (by decide)))
    (htext _ (spares_common kind)) s s'
  rw [folder?, folder?, hown, hcommon]

/-! ## Settings files -/

theorem folder_of (environment : Environment) (s : Settings) (kind : DataKind) :
    (DataFolders.of environment s).folder kind = s.folder? environment kind := by
  cases kind <;> rfl

section Load

variable {disk : Disk} {source : String}

theorem load_of_error {fault : DiskFault} (h : disk.readText source = .error fault) :
    DataFolders.load disk environment source mark = .error (.unreadable source fault) := by
  simp only [DataFolders.load, load, reload, h]
  rfl

theorem load_of_ok (h : disk.readText source = .ok text) :
    DataFolders.load disk environment source mark =
      let folders := DataFolders.of environment ((empty.setMark mark).parse text)
      if folders.tiles.isNone && folders.meshes.isNone then .error (.noFolder source)
      else .ok folders := by
  simp only [DataFolders.load, load, reload, h]
  rfl

/-- **When a settings file names enough folders:** it has a text, and the folder of tiles or that of
meshes follows from it. -/
theorem load_eq_ok_iff {folders : DataFolders} :
    DataFolders.load disk environment source mark = .ok folders ↔
      ∃ text, disk.Holds source text ∧
        folders = DataFolders.of environment ((empty.setMark mark).parse text) ∧
        (folders.tiles ≠ none ∨ folders.meshes ≠ none) := by
  simp only [← Disk.readText_eq_ok_iff]
  cases hread : disk.readText source with
  | error fault => simp [load_of_error hread]
  | ok text =>
    rw [load_of_ok hread]
    simp only [Except.ok.injEq, exists_eq_left', Bool.and_eq_true, Option.isNone_iff_eq_none]
    split
    · next hnone =>
      refine iff_of_false nofun ?_
      rintro ⟨rfl, htiles | hmeshes⟩
      · exact htiles hnone.1
      · exact hmeshes hnone.2
    · next hsome =>
      rw [Except.ok.injEq]
      constructor
      · rintro rfl
        exact ⟨rfl, not_and_or.1 hsome⟩
      · rintro ⟨rfl, -⟩
        rfl

end Load

/-- **How folders are found.**  After a text has been read, a lookup sees the variable of a key
before its last assignment; the folder of a kind is the one of its own key, or its place in the
common folder where that key is blank, and neither the variables nor the assignments of the other
kinds matter.  A settings file is enough exactly if it has a text and the folder of tiles or that of
meshes is found. -/
theorem folders_by_precedence (environment : Environment) (mark text : String) (s : Settings) :
    (∀ key, Sees environment mark text key
      (((s.setMark mark).parse text).look environment key)) ∧
    (∀ kind, Resolved (((s.setMark mark).parse text).look environment) kind
      ((DataFolders.of environment ((s.setMark mark).parse text)).folder kind)) ∧
    (∀ kind (environment' : Environment) (text' : String),
      (∀ name, SparesVariable mark kind name → environment' name = environment name) →
      (∀ key, Spares kind key → assigned? text' key = assigned? text key) →
      (DataFolders.of environment' ((s.setMark mark).parse text')).folder kind =
        (DataFolders.of environment ((s.setMark mark).parse text)).folder kind) ∧
    ∀ (disk : Disk) (source : String) (folders : DataFolders),
      DataFolders.load disk environment source mark = .ok folders ↔
        ∃ text, disk.Holds source text ∧
          folders = DataFolders.of environment ((s.setMark mark).parse text) ∧
          (folders.tiles ≠ none ∨ folders.meshes ≠ none) := by
  refine ⟨fun key => sees_look environment mark text key s, fun kind => ?_, ?_, ?_⟩
  · rw [folder_of]
    exact resolved_folder? environment _ kind
  · intro kind environment' text' hvariables htext
    rw [folder_of, folder_of]
    exact folder?_others hvariables htext s s
  · intro disk source folders
    exact load_eq_ok_iff

/-- A blank variable for tiles, one that is not UTF-8 for collision geometry, and no other. -/
def oddVariables : Environment := fun name =>
  if name = "P_MapsDir" then some #[0x20]
  else if name = "P_VMapsDir" then some #[0xff]
  else none

/-- A text that names the common folder and the folders of tiles and of collision geometry. -/
def folderText : String := "MapsDir = /own\nVMapsDir = /geometry\nDataDir = \" /data \"\n"

/-- The blank variable hides the text's folder of tiles, the one that is not UTF-8 hides nothing. -/
theorem folders_of_folderText :
    DataFolders.load (fun _ => .ok folderText.toUTF8.data) oddVariables "plain.conf" "P_" =
      .ok ⟨some "/data/maps", some "/geometry", some "/data/mmaps"⟩ := by
  obtain ⟨-, -, -, hload⟩ := folders_by_precedence oddVariables "P_" folderText empty
  have hfolders : DataFolders.of oddVariables ((empty.setMark "P_").parse folderText) =
      ⟨some (joinPath "/data" "maps"), some "/geometry", some (joinPath "/data" "mmaps")⟩ := by
    simp only [DataFolders.of, folder?, look_parse]
    rfl
  have htiles : joinPath "/data" "maps" = "/data/maps" := by decide +kernel
  have hmeshes : joinPath "/data" "mmaps" = "/data/mmaps" := by decide +kernel
  rw [htiles, hmeshes] at hfolders
  exact (hload _ _ _).2
    ⟨folderText, Disk.holds_of_toUTF8 rfl, hfolders.symm, .inl nofun⟩

end Settings

end Overland
