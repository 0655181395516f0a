import Fumiko.LocalAi.Ollama
import Mathlib.Data.Rat.Defs
import Mathlib.Data.List.Nodup

namespace Fumiko.LocalAi

structure OllamaModel where
  name : String
  size : Nat
  modifiedAt : String
  deriving DecidableEq

inductive ModelTier
  | tier1 | tier2
  deriving DecidableEq

structure PullableModel where
  name : String
  approxSizeGb : Rat
  tier : ModelTier
  description : String
  deriving DecidableEq

def phi4Mini : PullableModel :=
  { name := "phi4-mini", approxSizeGb := 38 / 10, tier := .tier2
    description := "Stronger reasoning, better for full-body classification on ambiguous emails." }

def pullableModels : List PullableModel :=
  [{ name := "llama3.2:1b", approxSizeGb := 13 / 10, tier := .tier1
     description := "Smallest, fastest option though may be less accurate" },
   { name := "llama3.2:3b", approxSizeGb := 2, tier := .tier1
     description := "A bit more accurate than the 1b if you can spare the RAM." },
   { name := "gemma2:2b", approxSizeGb := 16 / 10, tier := .tier1
     description := "Fast lightweight model with strong instruction following." },
   phi4Mini]

structure ModelEntry where
  name : String
  installed : Bool
  size : Option Nat
  modifiedAt : Option String
  catalog : Option PullableModel
  deriving DecidableEq

def namesMatch (installedName catalogName : String) : Bool :=
  installedName = catalogName || installedName = catalogName ++ ":latest" ||
    catalogName = installedName ++ ":latest"

/-- `is_model_pulled`, once the tags have been listed. -/
def isModelPulled (installed : List OllamaModel) (model : String) : Bool :=
  installed.any fun m => namesMatch m.name model

def installedEntry (catalog : List PullableModel) (model : OllamaModel) : ModelEntry :=
  { name := model.name, installed := true, size := some model.size, modifiedAt := some model.modifiedAt
    catalog := catalog.find? fun pullable => namesMatch model.name pullable.name }

def pullableEntry (pullable : PullableModel) : ModelEntry :=
  { name := pullable.name, installed := false, size := none, modifiedAt := none, catalog := some pullable }

/-- `list_models_view` with `PULLABLE_MODELS` as its catalog, once the tags have been listed. -/
def listModelsView (catalog : List PullableModel) (installed : List OllamaModel) : List ModelEntry :=
  installed.map (installedEntry catalog) ++
    (catalog.filter fun pullable => !isModelPulled installed pullable.name).map pullableEntry

section Laws

variable {catalog : List PullableModel} {installed : List OllamaModel} {p q : PullableModel} {tag : String}

/-- The entries have names of their own, none of which is another one's `:latest`. -/
structure Distinct (catalog : List PullableModel) : Prop where
  names : (catalog.map PullableModel.name).Nodup
  plain : ∀ p ∈ catalog, ∀ name, p.name ≠ name ++ ":latest"

theorem namesMatch_iff (h : Distinct catalog) (hp : p ∈ catalog) :
    namesMatch tag p.name ↔ tag = p.name ∨ tag = p.name ++ ":latest" := by
  simp [namesMatch, h.plain p hp tag]

theorem Distinct.eq_of_namesMatch (h : Distinct catalog) (hp : p ∈ catalog) (hq : q ∈ catalog)
    (htag : namesMatch tag p.name) (htag' : namesMatch tag q.name) : p = q := by
  apply List.inj_on_of_nodup_map h.names hp hq
  rcases (namesMatch_iff h hp).mp htag with rfl | rfl
  · rcases (namesMatch_iff h hq).mp htag' with heq | heq
    · exact heq
    · exact absurd heq (h.plain p hp q.name)
  · rcases (namesMatch_iff h hq).mp htag' with heq | heq
    · exact absurd heq.symm (h.plain q hq p.name)
    · exact String.append_left_inj _ |>.mp heq

theorem Distinct.find_iff (h : Distinct catalog) (hp : p ∈ catalog) (tag : String) :
    (catalog.find? fun pullable => namesMatch tag pullable.name) = some p ↔ namesMatch tag p.name := by
  constructor
  · intro hfind
    simpa using List.find?_some hfind
  · intro htag
    cases hfind : catalog.find? fun pullable => namesMatch tag pullable.name with
    | none => exact absurd htag (List.find?_eq_none.mp hfind p hp)
    | some q =>
      have hmatch : namesMatch tag q.name := by simpa using List.find?_some hfind
      rw [h.eq_of_namesMatch hp (List.mem_of_find?_eq_some hfind) htag hmatch]

theorem Distinct.installed_of (h : Distinct catalog) (hp : p ∈ catalog) :
    ∀ installed : List OllamaModel,
      (installed.map (installedEntry catalog)).filter (·.catalog = some p) =
        (installed.filter fun m => namesMatch m.name p.name).map (installedEntry catalog)
  | [] => rfl
  | m :: installed => by
    have hm := h.find_iff hp m.name
    by_cases htag : namesMatch m.name p.name <;>
      simp_all [installedEntry, h.installed_of hp installed]

theorem Distinct.pullable_of (h : Distinct catalog) (hp : p ∈ catalog) (missing : PullableModel → Bool) :
    ((catalog.filter missing).map pullableEntry).filter (·.catalog = some p) =
      if missing p then [pullableEntry p] else [] := by
  have honce : catalog.count p = 1 := List.count_eq_one_of_mem (List.Nodup.of_map _ h.names) hp
  have hfind : catalog.filter (· = p) = [p] := by rw [List.filter_eq, honce, List.replicate_one]
  have hmap : (fun q => decide (q.catalog = some p)) ∘ pullableEntry = (· = p) := by
    funext q
    simp [pullableEntry]
  rw [List.filter_map, hmap, List.filter_filter, List.filter_congr fun q _ => Bool.and_comm _ _,
    ← List.filter_filter, hfind]
  cases hmissing : missing p <;> simp [hmissing]

theorem getLast?_latest (name : String) : (name ++ ":latest").toList.getLast? = some 't' := by
  simp [String.toList_append]

theorem distinct_pullableModels : Distinct pullableModels where
  names := by decide
  plain := by
    have hlast : ∀ p ∈ pullableModels, p.name.toList.getLast? ≠ some 't' := by
      simp [pullableModels, phi4Mini]
    intro p hp name heq
    exact hlast p hp (heq ▸ getLast?_latest name)

/-- Whatever is installed, a model of the catalog is listed with the tags that are installed of it, under
their own names and sizes, or, when there are none, once and to be pulled. -/
theorem listModelsView_of_catalog (installed : List OllamaModel) (p : PullableModel) (hp : p ∈ pullableModels) :
    (listModelsView pullableModels installed).filter (·.catalog = some p) =
      if isModelPulled installed p.name then
        (installed.filter fun m => namesMatch m.name p.name).map (installedEntry pullableModels)
      else [pullableEntry p] := by
  rw [listModelsView, List.filter_append, distinct_pullableModels.installed_of hp,
    distinct_pullableModels.pullable_of hp]
  cases hpulled : isModelPulled installed p.name with
  | true => simp
  | false =>
    have hnone : installed.filter (fun m => namesMatch m.name p.name) = [] := by
      simpa [isModelPulled] using hpulled
    simp [hnone]

theorem listModelsView_of_catalog_latest :
    (listModelsView pullableModels [⟨"phi4-mini:latest", 2491876774, "2026-01-02"⟩]).filter
        (·.catalog = some phi4Mini) =
      [installedEntry pullableModels ⟨"phi4-mini:latest", 2491876774, "2026-01-02"⟩] :=
  (listModelsView_of_catalog _ phi4Mini (by simp [pullableModels])).trans (by
    simp [isModelPulled, namesMatch, phi4Mini])

end Laws

end Fumiko.LocalAi
