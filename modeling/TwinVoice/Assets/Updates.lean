import TwinVoice.Assets.Service
import TwinVoice.Lib.Traversal

/-! # Imported submodels under updates

An imported package can say more than the columns of an asset do. The stored
submodels keep it until the first update of the asset, which writes both again
from the row. -/

namespace TwinVoice.Assets

open TwinVoice.Lib

/-! ## Elements by their path -/

/-- The element that the names of a path lead to. -/
def lookup : List Element → List String → Option Element
  | _, [] => none
  | elements, [name] => find elements name
  | elements, name :: path => match find elements name with
    | some (.collection _ children) => lookup children path
    | _ => none

def elementsOf (content : Option Submodel) : List Element := (content.map Submodel.elements).getD []

theorem find_eq_some {elements : List Element} {name : String} {e : Element} (h : find elements name = some e) :
    e ∈ elements ∧ e.idShort = name := by
  unfold find at h
  exact ⟨List.mem_of_find?_eq_some h, by simpa using List.find?_some h⟩

/-- A path leads to an element by its name, or into a collection. -/
theorem lookup_cases {elements : List Element} {path : List String} {e : Element} (h : lookup elements path = some e) :
    (∃ x ∈ elements, path = [x.idShort]) ∨
      ∃ name children rest, .collection name children ∈ elements ∧ path = name :: rest ∧ lookup children rest = some e := by
  match path with
  | [] => cases h
  | [name] =>
    obtain ⟨hmem, rfl⟩ := find_eq_some h
    exact .inl ⟨e, hmem, rfl⟩
  | name :: next :: rest =>
    unfold lookup at h
    split at h
    · rename_i found children hfound
      obtain ⟨hmem, rfl⟩ := find_eq_some hfound
      exact .inr ⟨_, children, next :: rest, hmem, rfl, h⟩
    · cases h

def Element.isCollection : Element → Bool
  | .collection _ _ => true
  | _ => false

/-- Where no element has elements of its own, only a name leads to one. -/
theorem path_of_flat {elements : List Element} (hflat : elements.all (fun x => !x.isCollection) = true) {path : List String} {e : Element}
    (h : lookup elements path = some e) : path ∈ elements.map fun x => [x.idShort] := by
  rcases lookup_cases h with ⟨x, hx, rfl⟩ | ⟨name, children, rest, hmem, _, _⟩
  · exact List.mem_map_of_mem hx
  · cases List.all_eq_true.mp hflat _ hmem

/-- The paths of the elements that the code writes to a nameplate. -/
def nameplatePaths : List (List String) :=
  [["URIOfTheProduct"], ["ManufacturerName"], ["ManufacturerProductDesignation"], ["SerialNumber"]]

/-- The paths of the elements that the code writes to technical data. -/
def technicalDataPaths : List (List String) :=
  [["GeneralInformation"], ["GeneralInformation", "ManufacturerName"], ["GeneralInformation", "ManufacturerArticleNumber"],
    ["TechnicalProperties"], ["TechnicalProperties", "AssetType"], ["TechnicalProperties", "RatedPowerKw"],
    ["TechnicalProperties", "IdealCycleTimeS"], ["TechnicalProperties", "FidelityLevel"], ["TechnicalProperties", "InstallDate"]]

/-- A nameplate made of a row has no other elements. -/
theorem path_of_nameplate {D : Type} {asset : Asset D} {content : Submodel} (h : buildNameplate asset = .ok content)
    {path : List String} {e : Element} (he : lookup content.elements path = some e) : path ∈ nameplatePaths := by
  cases h
  exact path_of_flat rfl he

/-- Technical data made of a row has no other elements. -/
theorem path_of_technicalData {P D : Type} {py : Texts P D} {asset : Asset D} {content : Submodel}
    (h : buildTechnicalData py asset = .ok content) {path : List String} {e : Element} (he : lookup content.elements path = some e) :
    path ∈ technicalDataPaths := by
  let general := [prop "ManufacturerName" asset.manufacturer, prop "ManufacturerArticleNumber" asset.model]
  let technical := [prop "AssetType" (some asset.assetType), double "RatedPowerKw" (asset.ratedPowerKw.map Numeric.toRat),
    double "IdealCycleTimeS" (asset.idealCycleTimeS.map Numeric.toRat), .property "FidelityLevel" (some (.int asset.fidelityLevel)),
    prop "InstallDate" (asset.installDate.map py.isoformat)]
  have hbuilt : buildTechnicalData py asset = .ok ⟨_, _, _, [.collection "GeneralInformation" general,
    .collection "TechnicalProperties" technical]⟩ := rfl
  have hpaths : technicalDataPaths = (["GeneralInformation"] :: (general.map fun x => [x.idShort]).map ("GeneralInformation" :: ·)) ++
      ["TechnicalProperties"] :: (technical.map fun x => [x.idShort]).map ("TechnicalProperties" :: ·) := rfl
  rw [hbuilt] at h
  cases h
  rw [hpaths]
  rcases lookup_cases he with ⟨x, hx, rfl⟩ | ⟨name, children, rest, hmem, rfl, hrest⟩
  · simp only [List.mem_cons, List.not_mem_nil, or_false] at hx
    rcases hx with rfl | rfl
    · exact List.mem_append_left _ List.mem_cons_self
    · exact List.mem_append_right _ List.mem_cons_self
  · simp only [List.mem_cons, List.not_mem_nil, or_false, Element.collection.injEq] at hmem
    rcases hmem with ⟨rfl, rfl⟩ | ⟨rfl, rfl⟩
    · exact List.mem_append_left _ (List.mem_cons_of_mem _ (List.mem_map_of_mem (path_of_flat rfl hrest)))
    · exact List.mem_append_right _ (List.mem_cons_of_mem _ (List.mem_map_of_mem (path_of_flat rfl hrest)))

/-- The package has an element at a path that the code does not write. -/
def Additional (package : List Shell) (idShort : String) (paths : List (List String)) (path : List String) (e : Element) : Prop :=
  lookup (elementsOf (submodelOf package idShort)) path = some e ∧ path ∉ paths

/-- The stored submodels have every additional element of the package, with its value. -/
structure Kept {P D : Type} (package : List Shell) (s : Stored P D) : Prop where
  nameplate : ∀ path e, Additional package "Nameplate" nameplatePaths path e → lookup (elementsOf s.nameplate) path = some e
  technicalData : ∀ path e, Additional package "TechnicalData" technicalDataPaths path e → lookup (elementsOf s.technicalData) path = some e

/-- The package says nothing that the columns of an asset do not. -/
structure Plain (package : List Shell) : Prop where
  nameplate : ∀ path e, ¬ Additional package "Nameplate" nameplatePaths path e
  technicalData : ∀ path e, ¬ Additional package "TechnicalData" technicalDataPaths path e

section
variable {P D : Type} (py : Texts P D)

/-- A call of `update_asset` with the answer of the twin store; a call that fails is undone. -/
def update (s : Stored P D) (call : AssetUpdate D × Except Failure Unit) : Stored P D :=
  match updateAsset py s call.1 call.2 with
  | .ok updated => updated
  | .error _ => s

def updates (s : Stored P D) (calls : List (AssetUpdate D × Except Failure Unit)) : Stored P D := calls.foldl (update py) s

/-- No column that must have a value is set to nothing, and the twin store takes the update. -/
def Accepted (call : AssetUpdate D × Except Failure Unit) : Prop :=
  call.1.name ≠ some none ∧ call.1.fidelityLevel ≠ some none ∧ call.1.status ≠ some none ∧ call.2 = .ok ()

/-- Both submodels are those of the row. -/
def Rewritten (s : Stored P D) : Prop :=
  ∃ nameplate technicalData, buildNameplate s.asset = .ok nameplate ∧ buildTechnicalData py s.asset = .ok technicalData ∧
    s.nameplate = some nameplate ∧ s.technicalData = some technicalData

theorem required_eq_ok_iff {α : Type} {new : Option (Option α)} {old : α} : (∃ value, required new old = .ok value) ↔ new ≠ some none := by
  match new with
  | none => simp [required]
  | some none => simp [required]
  | some (some value) => simp [required]

theorem apply_eq_ok_iff {u : AssetUpdate D} {a : Asset D} :
    (∃ a', u.apply a = .ok a') ↔ u.name ≠ some none ∧ u.fidelityLevel ≠ some none ∧ u.status ≠ some none := by
  constructor
  · intro h
    obtain ⟨a', h⟩ := h
    unfold AssetUpdate.apply at h
    obtain ⟨_, hname, h⟩ := bind_eq_ok h
    obtain ⟨_, hfidelity, h⟩ := bind_eq_ok h
    obtain ⟨_, hstatus, h⟩ := bind_eq_ok h
    exact ⟨required_eq_ok_iff.mp ⟨_, hname⟩, required_eq_ok_iff.mp ⟨_, hfidelity⟩, required_eq_ok_iff.mp ⟨_, hstatus⟩⟩
  · intro h
    obtain ⟨hname, hfidelity, hstatus⟩ := h
    obtain ⟨name, hname⟩ := (@required_eq_ok_iff _ _ a.name).mpr hname
    obtain ⟨fidelityLevel, hfidelity⟩ := (@required_eq_ok_iff _ _ a.fidelityLevel).mpr hfidelity
    obtain ⟨status, hstatus⟩ := (@required_eq_ok_iff _ _ a.status).mpr hstatus
    unfold AssetUpdate.apply
    rw [hname, hfidelity, hstatus]
    exact ⟨_, rfl⟩

theorem update_of_accepted {call : AssetUpdate D × Except Failure Unit} (h : Accepted call) (s : Stored P D) :
    Rewritten py (update py s call) := by
  obtain ⟨hname, hfidelity, hstatus, hsync⟩ := h
  obtain ⟨asset, hasset⟩ := (@apply_eq_ok_iff _ call.1 s.asset).mpr ⟨hname, hfidelity, hstatus⟩
  have hupdate : ∃ updated, updateAsset py s call.1 call.2 = .ok updated ∧ Rewritten py updated := by
    unfold updateAsset
    rw [hasset, hsync]
    exact ⟨_, rfl, _, _, rfl, rfl, rfl, rfl⟩
  obtain ⟨updated, hupdated, hrewritten⟩ := hupdate
  rw [update, hupdated]
  exact hrewritten

theorem update_of_not_accepted {call : AssetUpdate D × Except Failure Unit} (h : ¬ Accepted call) (s : Stored P D) :
    update py s call = s := by
  unfold update
  split
  · rename_i updated hupdated
    refine absurd ?_ h
    unfold updateAsset at hupdated
    obtain ⟨asset, hasset, hupdated⟩ := bind_eq_ok hupdated
    obtain ⟨_, _, hupdated⟩ := bind_eq_ok hupdated
    obtain ⟨_, hsync, _⟩ := bind_eq_ok hupdated
    obtain ⟨hname, hfidelity, hstatus⟩ := apply_eq_ok_iff.mp ⟨asset, hasset⟩
    exact ⟨hname, hfidelity, hstatus, hsync⟩
  · rfl

/-- One accepted call, and both submodels are those of the row from there on. -/
theorem updates_of_accepted {calls : List (AssetUpdate D × Except Failure Unit)} {call : AssetUpdate D × Except Failure Unit}
    (hcall : call ∈ calls) (h : Accepted call) (s : Stored P D) : Rewritten py (updates py s calls) := by
  have hkeep : ∀ (rest : List (AssetUpdate D × Except Failure Unit)) (s : Stored P D), Rewritten py s → Rewritten py (updates py s rest) := by
    intro rest
    induction rest with
    | nil => exact fun s hs => hs
    | cons next rest ih =>
      intro s hs
      by_cases hnext : Accepted next
      · exact ih _ (update_of_accepted py hnext s)
      · exact ih _ (by rwa [update_of_not_accepted py hnext s])
  obtain ⟨pre, post, rfl⟩ := List.append_of_mem hcall
  rw [updates, List.foldl_append, List.foldl_cons]
  exact hkeep post _ (update_of_accepted py h _)

theorem updates_of_none_accepted {calls : List (AssetUpdate D × Except Failure Unit)} (h : ∀ call ∈ calls, ¬ Accepted call)
    (s : Stored P D) : updates py s calls = s := by
  induction calls with
  | nil => rfl
  | cons call calls ih =>
    obtain ⟨hcall, hrest⟩ := List.forall_mem_cons.mp h
    show updates py (update py s call) calls = s
    rw [update_of_not_accepted py hcall s, ih hrest]

/-- A submodel that is made of the row has nothing additional of the package. -/
theorem Rewritten.plain {package : List Shell} {s : Stored P D} (h : Rewritten py s) (hkept : Kept package s) : Plain package := by
  obtain ⟨nameplate, technicalData, hnameplate, htechnicalData, hplate, htechnical⟩ := h
  constructor
  · intro path e hadditional
    have hlookup := hkept.nameplate path e hadditional
    rw [hplate] at hlookup
    exact hadditional.2 (path_of_nameplate hnameplate hlookup)
  · intro path e hadditional
    have hlookup := hkept.technicalData path e hadditional
    rw [htechnical] at hlookup
    exact hadditional.2 (path_of_technicalData htechnicalData hlookup)

theorem stored_of_import {package : List Shell} {assetType : String} {firstId : Uuid} {s : Stored P D}
    (h : importAasx py package assetType firstId = .ok s) :
    ∃ nameplate technicalData build build', orBuild (submodelOf package "Nameplate") build = .ok nameplate ∧
      orBuild (submodelOf package "TechnicalData") build' = .ok technicalData ∧
      s.nameplate = some nameplate ∧ s.technicalData = some technicalData := by
  unfold importAasx at h
  split at h
  · cases h
  · obtain ⟨_, _, h⟩ := bind_eq_ok h
    split at h
    · obtain ⟨_, _, h⟩ := bind_eq_ok h
      unfold createAsset at h
      dsimp only at h
      split at h
      · obtain ⟨_, _, h⟩ := bind_eq_ok h
        obtain ⟨nameplate, hnameplate, h⟩ := bind_eq_ok h
        obtain ⟨technicalData, htechnicalData, h⟩ := bind_eq_ok h
        cases h
        exact ⟨nameplate, technicalData, _, _, hnameplate, htechnicalData, rfl, rfl⟩
      · cases h
    · cases h

theorem lookup_of_orBuild {content : Option Submodel} {build : Except Failure Submodel} {stored : Submodel}
    (h : orBuild content build = .ok stored) {path : List String} {e : Element} (he : lookup (elementsOf content) path = some e) :
    lookup (elementsOf (some stored)) path = some e := by
  cases content with
  | none =>
    rcases lookup_cases he with ⟨x, hx, _⟩ | ⟨name, children, rest, hmem, _, _⟩
    · cases hx
    · cases hmem
  | some content =>
    cases h
    exact he

/-- What the package has is what is stored. -/
theorem kept_of_import {package : List Shell} {assetType : String} {firstId : Uuid} {s : Stored P D}
    (h : importAasx py package assetType firstId = .ok s) : Kept package s := by
  obtain ⟨nameplate, technicalData, build, build', hnameplate, htechnicalData, hplate, htechnical⟩ := stored_of_import py h
  constructor
  · intro path e hadditional
    rw [hplate]
    exact lookup_of_orBuild hnameplate hadditional.1
  · intro path e hadditional
    rw [htechnical]
    exact lookup_of_orBuild htechnicalData hadditional.1

/-- The additional elements of an imported package outlive a sequence of updates exactly if no update is
accepted, or there are none. -/
theorem additional_elements_kept_iff {package : List Shell} {assetType : String} {firstId : Uuid} {s : Stored P D}
    (himport : importAasx py package assetType firstId = .ok s) (calls : List (AssetUpdate D × Except Failure Unit)) :
    Kept package (updates py s calls) ↔ (∀ call ∈ calls, ¬ Accepted call) ∨ Plain package := by
  constructor
  · intro hkept
    by_cases hnone : ∀ call ∈ calls, ¬ Accepted call
    · exact .inl hnone
    · simp only [not_forall, not_not] at hnone
      obtain ⟨call, hcall, haccepted⟩ := hnone
      exact .inr ((updates_of_accepted py hcall haccepted s).plain py hkept)
  · intro h
    rcases h with hnone | hplain
    · rw [updates_of_none_accepted py hnone]
      exact kept_of_import py himport
    · exact ⟨fun path e hadditional => absurd hadditional (hplain.nameplate path e),
        fun path e hadditional => absurd hadditional (hplain.technicalData path e)⟩

end

/-! ## A year that is lost -/

/-- A package whose nameplate has the year of construction. -/
def datedPackage : List Shell :=
  [⟨"urn:press-1", none, [("en", "Press 1")], some "https://example.com/assets/press-1",
    [⟨"urn:press-1:nameplate", "Nameplate", none, [prop "SerialNumber" (some "7"), prop "YearOfConstruction" (some "2019")]⟩]⟩]

def renamed : AssetUpdate Unit := ⟨some (some "Press one"), none, none, none, none, none, none, none, none⟩

def importedPress : Except Failure (Stored Unit Unit) := importAasx bareTexts datedPackage "hydraulic_press" 1

theorem additional_elements_of_press :
    ∃ s, importAasx bareTexts datedPackage "hydraulic_press" 1 = .ok s ∧
      (Kept datedPackage (updates bareTexts s [(renamed, .ok ())]) ↔
        (∀ call ∈ [(renamed, Except.ok ())], ¬ Accepted call) ∨ Plain datedPackage) := by
  have hok : importedPress.isOk = true := by decide +kernel
  cases himport : importAasx bareTexts datedPackage "hydraulic_press" 1 with
  | error e =>
    rw [importedPress, himport] at hok
    cases hok
  | ok s => exact ⟨s, rfl, additional_elements_kept_iff bareTexts himport _⟩

/-- The year is imported, and a new name for the asset loses it. -/
theorem year_is_lost_on_renaming :
    (match importedPress with
      | .ok s => (lookup (elementsOf s.nameplate) ["YearOfConstruction"]).isSome &&
          (lookup (elementsOf (updates bareTexts s [(renamed, .ok ())]).nameplate) ["YearOfConstruction"]).isNone
      | .error _ => false) = true := by
  decide +kernel

end TwinVoice.Assets
