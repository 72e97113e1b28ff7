/-
# OpsAssist.Gateway.WithoutProvider -- dropping a provider commutes with resolution

Outside dev and test the mock provider is dropped from the catalog, and everything that
depends on it.  The pruned catalog is validated like any other.

`drop_commutes`: of a valid catalog whose default routes keep a model, the pruned catalog is
valid and without the provider, and resolving in it is resolving first and filtering then.
Every catalog that is valid resolves well (`ResolvesWell`): one target for an embedding, chat
models for a chat, and a model for every choice it accepts.  Pole: `drop_commutes_pole`.
-/
import Mathlib.Data.List.Dedup
import OpsAssist.Gateway.Catalog
import OpsAssist.Host

namespace OpsAssist.Gateway

set_option autoImplicit false

/-! ## Validation -/

/-- The fields of a catalog before its references are validated. -/
structure CatalogFields where
  providers : List (String × ProviderConfig)
  models : List ModelSpec
  routes : List (String × List String)
  defaultChat : String
  defaultEmbedding : String
  selectable : List String := []
  routes_once : (routes.map Prod.fst).Nodup := by decide

/-- A literal of the source. -/
def ModelKind.text : ModelKind → String
  | .chat => "chat"
  | .embedding => "embedding"

namespace CatalogFields

variable (host : Host) (fields : CatalogFields)

/-- `by_id`, once the ids are known to be unique. -/
def byId (modelId : String) : Option ModelSpec := fields.models.find? fun m => m.id == modelId

/-- The text of a list of texts. -/
def reprs (texts : List String) : String :=
  "[" ++ String.intercalate ", " (texts.map host.repr) ++ "]"

def checkModel (m : ModelSpec) : Except String Unit :=
  if (fields.providers.lookup m.provider).isNone then
    .error ("model " ++ m.id ++ " references unknown provider " ++ host.repr m.provider)
  else if m.kind = .embedding ∧ m.dimensions.getD 0 = 0 then
    .error ("embedding model " ++ m.id ++ " must declare dimensions")
  else .ok ()

def checkRoute (route : String × List String) : Except String Unit :=
  let missing := route.2.filter fun t => (fields.byId t).isNone
  let kinds := ((route.2.filterMap fields.byId).map ModelSpec.kind).dedup
  if (fields.byId route.1).isSome then
    .error ("route " ++ host.repr route.1 ++ " collides with a model id")
  else if route.2 = [] then .error ("route " ++ host.repr route.1 ++ " is empty")
  else if missing ≠ [] then
    .error ("route " ++ host.repr route.1 ++ " references unknown models " ++ reprs host missing)
  else if kinds.length ≠ 1 then
    .error ("route " ++ host.repr route.1 ++ " mixes chat and embedding models")
  else if kinds = [.embedding] ∧ route.2.length ≠ 1 then
    .error ("embedding route " ++ host.repr route.1 ++ " must have exactly one model: " ++
      "vectors from different models are not comparable")
  else .ok ()

def checkSelectable (modelId : String) : Except String Unit :=
  if (fields.byId modelId).map ModelSpec.kind = some .chat then .ok ()
  else .error ("selectable entry " ++ host.repr modelId ++ " is not a chat model")

def checkDefault (kind : ModelKind) (route : String) : Except String Unit :=
  match fields.routes.lookup route with
  | none =>
      .error ("default " ++ kind.text ++ " route " ++ host.repr route ++ " is not defined")
  | some targets =>
      if (targets.head?.bind fields.byId).map ModelSpec.kind = some kind then .ok ()
      else
        .error ("default " ++ kind.text ++ " route " ++ host.repr route ++ " has the wrong kind")

/-- Raises unless this holds. -/
def ensure (holds : Bool) (text : String) : Except String Unit :=
  if holds then .ok () else .error text

/-- `_validate_references` -/
def validateReferences : Except String Unit := do
  ensure (fields.models.map ModelSpec.id).Nodup "duplicate model ids in catalog"
  fields.models.forM (fields.checkModel host)
  fields.routes.forM (fields.checkRoute host)
  fields.selectable.forM (fields.checkSelectable host)
  ensure fields.selectable.Nodup "selectable contains duplicates"
  fields.checkDefault host .chat fields.defaultChat
  fields.checkDefault host .embedding fields.defaultEmbedding

/-! ## What is validated -/

variable {host fields}

/-- A route that the validator lets pass. -/
structure SoundRoute (fields : CatalogFields) (name : String) (targets : List String) : Prop where
  apart : fields.byId name = none
  nonempty : targets ≠ []
  one_kind : ∃ kind, (∀ t ∈ targets, (fields.byId t).map ModelSpec.kind = some kind) ∧
    (kind = .embedding → targets.length = 1)

/-- A default that names a route whose first model is of the kind. -/
def SoundDefault (fields : CatalogFields) (kind : ModelKind) (route : String) : Prop :=
  ∃ targets, fields.routes.lookup route = some targets ∧
    (targets.head?.bind fields.byId).map ModelSpec.kind = some kind

structure Valid (fields : CatalogFields) : Prop where
  unique_ids : (fields.models.map ModelSpec.id).Nodup
  providers_known : ∀ m ∈ fields.models, (fields.providers.lookup m.provider).isSome
  dimensioned : ∀ m ∈ fields.models, m.kind = .embedding → m.dimensions.getD 0 ≠ 0
  routes_sound : ∀ route ∈ fields.routes, SoundRoute fields route.1 route.2
  selectable_chat : ∀ t ∈ fields.selectable, (fields.byId t).map ModelSpec.kind = some .chat
  selectable_once : fields.selectable.Nodup
  default_chat : SoundDefault fields .chat fields.defaultChat
  default_embedding : SoundDefault fields .embedding fields.defaultEmbedding

theorem forM_ok_iff {α : Type} {f : α → Except String Unit} :
    ∀ {xs : List α}, xs.forM f = .ok () ↔ ∀ x ∈ xs, f x = .ok ()
  | [] => by simp [pure, Except.pure]
  | x :: rest => by
      have one : (x :: rest).forM f = (f x >>= fun _ => rest.forM f) := rfl
      rw [one, List.forall_mem_cons, ← @forM_ok_iff _ f rest]
      cases f x with
      | ok u => simp [bind, Except.bind]
      | error e => simp [bind, Except.bind]

theorem checkModel_ok_iff {m : ModelSpec} : fields.checkModel host m = .ok () ↔
    (fields.providers.lookup m.provider).isSome ∧
      (m.kind = .embedding → m.dimensions.getD 0 ≠ 0) := by
  unfold checkModel
  cases known : fields.providers.lookup m.provider with
  | none => simp
  | some config =>
      by_cases bare : m.kind = .embedding ∧ m.dimensions.getD 0 = 0
      · simp [bare]
      · simp only [Option.isNone_some, Bool.false_eq_true, if_false, if_neg bare, Option.isSome_some,
          true_and, true_iff]
        exact fun embedding none => bare ⟨embedding, none⟩

/-- Values that are not all missing and have one value between them. -/
theorem dedup_single {α β : Type} [DecidableEq β] {f : α → Option β} {xs : List α}
    (known : ∀ x ∈ xs, (f x).isSome) {b : β} :
    (xs.filterMap f).dedup = [b] ↔ xs ≠ [] ∧ ∀ x ∈ xs, f x = some b := by
  constructor
  · intro single
    have members : ∀ c, c ∈ xs.filterMap f ↔ c = b := by
      intro c
      rw [← List.mem_dedup, single, List.mem_singleton]
    refine ⟨?_, fun x mem => ?_⟩
    · rintro rfl
      simp at single
    · obtain ⟨c, value⟩ := Option.isSome_iff_exists.mp (known x mem)
      rw [value, (members c).mp (List.mem_filterMap.mpr ⟨x, mem, value⟩)]
  · rintro ⟨nonempty, all⟩
    have same : xs.filterMap f = List.replicate xs.length b := by
      clear nonempty known
      induction xs with
      | nil => rfl
      | cons x rest ih =>
          rw [List.filterMap_cons_some (all x List.mem_cons_self),
            ih fun y mem => all y (List.mem_cons_of_mem _ mem)]
          rfl
    rw [same, List.replicate_dedup (by simpa using nonempty)]

theorem checkSelectable_ok_iff {t : String} : fields.checkSelectable host t = .ok () ↔
    (fields.byId t).map ModelSpec.kind = some .chat := by
  unfold checkSelectable
  split <;> simp [*]

theorem checkDefault_ok_iff {kind : ModelKind} {route : String} :
    fields.checkDefault host kind route = .ok () ↔ SoundDefault fields kind route := by
  unfold checkDefault SoundDefault
  cases fields.routes.lookup route with
  | none => simp
  | some targets =>
      simp only [Option.some.injEq, exists_eq_left']
      split
      · rename_i right
        exact iff_of_true rfl right
      · rename_i wrong
        exact iff_of_false nofun wrong

/-! ## A validated catalog -/

theorem checkRoute_ok_iff {route : String × List String} :
    fields.checkRoute host route = .ok () ↔ SoundRoute fields route.1 route.2 := by
  obtain ⟨name, targets⟩ := route
  unfold checkRoute
  dsimp only
  by_cases collides : (fields.byId name).isSome
  · rw [if_pos collides]
    refine iff_of_false nofun fun sound => ?_
    rw [sound.apart] at collides
    cases collides
  rw [if_neg collides]
  have apart : fields.byId name = none := by simpa using collides
  by_cases empty : targets = []
  · rw [if_pos empty]
    exact iff_of_false nofun fun sound => sound.nonempty empty
  rw [if_neg empty]
  by_cases missing : targets.filter (fun t => (fields.byId t).isNone) = []
  · rw [if_neg (not_not.mpr missing)]
    have known : ∀ t ∈ targets, ((fields.byId t).map ModelSpec.kind).isSome := by
      intro t mem
      have there := List.filter_eq_nil_iff.mp missing t mem
      rw [Option.isSome_map]
      simpa using Option.ne_none_iff_isSome.mp fun gone => there (by rw [gone]; rfl)
    have kinds : (targets.filterMap fields.byId).map ModelSpec.kind =
        targets.filterMap fun t => (fields.byId t).map ModelSpec.kind := by
      rw [List.map_filterMap]
    rw [kinds]
    constructor
    · intro passed
      split_ifs at passed with mixed several
      obtain ⟨kind, single⟩ := List.length_eq_one_iff.mp (not_not.mp mixed)
      refine ⟨apart, empty, kind, ((dedup_single known).mp single).2, ?_⟩
      rintro rfl
      by_contra count
      exact several ⟨single, count⟩
    · rintro ⟨-, -, kind, all, alone⟩
      have single := (dedup_single known).mpr ⟨empty, all⟩
      rw [single, if_neg (by simp), if_neg]
      rintro ⟨same, several⟩
      exact several (alone (List.singleton_inj.mp same))
  · rw [if_pos missing]
    refine iff_of_false nofun fun sound => missing ?_
    obtain ⟨kind, all, -⟩ := sound.one_kind
    refine List.filter_eq_nil_iff.mpr fun t mem gone => ?_
    have known := all t mem
    rw [Option.isNone_iff_eq_none.mp gone] at known
    cases known

theorem ensure_ok_iff {holds : Bool} {text : String} :
    ensure holds text = .ok () ↔ holds = true := by
  unfold ensure
  cases holds <;> simp

theorem validateReferences_ok_iff : fields.validateReferences host = .ok () ↔ Valid fields := by
  have steps : ∀ {first rest : Except String Unit},
      (first >>= fun _ => rest) = .ok () ↔ first = .ok () ∧ rest = .ok () := by
    intro first rest
    cases first with
    | error e => simp [bind, Except.bind]
    | ok u => simp [bind, Except.bind]
  unfold validateReferences
  rw [steps, steps, steps, steps, steps, steps, ensure_ok_iff, ensure_ok_iff, forM_ok_iff,
    forM_ok_iff, forM_ok_iff, checkDefault_ok_iff, checkDefault_ok_iff, decide_eq_true_iff,
    decide_eq_true_iff]
  simp only [checkModel_ok_iff, checkRoute_ok_iff, checkSelectable_ok_iff]
  constructor
  · rintro ⟨unique, models, routes, chat, once, defaultChat, defaultEmbedding⟩
    exact {
      unique_ids := unique
      providers_known := fun m mem => (models m mem).1
      dimensioned := fun m mem => (models m mem).2
      routes_sound := routes
      selectable_chat := chat
      selectable_once := once
      default_chat := defaultChat
      default_embedding := defaultEmbedding }
  · intro valid
    exact ⟨valid.unique_ids,
      fun m mem => ⟨valid.providers_known m mem, valid.dimensioned m mem⟩, valid.routes_sound,
      valid.selectable_chat, valid.selectable_once, valid.default_chat, valid.default_embedding⟩

variable (host fields)

/-- `Catalog(…)` -/
def validated : Except String Catalog :=
  match checked : fields.validateReferences host with
  | .error text => .error text
  | .ok () =>
      have valid : Valid fields := validateReferences_ok_iff.mp checked
      .ok { fields with
        unique_ids := valid.unique_ids
        providers_known := valid.providers_known }

end CatalogFields

namespace Catalog

variable (host : Host) (catalog : Catalog)

/-- The fields of a catalog. -/
def fields : CatalogFields := { catalog with }

/-- The ids of the models that another provider serves. -/
def keptIds (provider : String) : List String :=
  (catalog.models.filter fun m => m.provider != provider).map ModelSpec.id

/-- What is left of a catalog without a provider. -/
def pruned (provider : String) : CatalogFields where
  providers := catalog.providers.filter fun entry => entry.1 != provider
  models := catalog.models.filter fun m => m.provider != provider
  routes := (catalog.routes.filter fun route =>
      route.2.any (catalog.keptIds provider).contains).map fun route =>
    (route.1, route.2.filter (catalog.keptIds provider).contains)
  defaultChat := catalog.defaultChat
  defaultEmbedding := catalog.defaultEmbedding
  selectable := catalog.selectable.filter (catalog.keptIds provider).contains
  routes_once := by
    rw [List.map_map]
    exact catalog.routes_once.sublist (List.filter_sublist.map _)

/-- Drop a provider and everything that depends on it. -/
def withoutProvider (provider : String) : Except String Catalog :=
  (catalog.pruned provider).validated host

/-- Whether a chat model choice of a client is accepted: `none` for `UnknownModelError`. -/
def checkChoice (name : Option String) (allowAny : Bool) : Option Unit :=
  match name with
  | none => some ()
  | some n =>
      if n ∈ catalog.selectable then some ()
      else if !allowAny then none
      else (catalog.resolve (some n) .chat).map fun _ => ()

/-! ## Resolving in a valid catalog -/

/-- What a valid catalog resolves and accepts. -/
structure ResolvesWell (catalog : Catalog) : Prop where
  embedding_alone : ∀ name route targets, catalog.resolve name .embedding = some (route, targets) →
    ∃ m, targets = [m] ∧ m.kind = .embedding
  chat_models : ∀ name route targets, catalog.resolve name .chat = some (route, targets) →
    targets ≠ [] ∧ ∀ m ∈ targets, m.kind = .chat
  picker_once : ∀ name route targets, catalog.resolve name .chat = some (route, targets) →
    route ∈ catalog.selectable → targets.Nodup
  accepted_resolve : ∀ name allowAny, catalog.checkChoice name allowAny = some () →
    ∃ resolved, catalog.resolve name .chat = some resolved

section

variable {host : Host} {catalog : Catalog}

theorem lookup_mem {α : Type} {xs : List (String × α)} {key : String} {a : α}
    (found : xs.lookup key = some a) : (key, a) ∈ xs := by
  obtain ⟨front, back, rfl, -⟩ := List.lookup_eq_some_iff.mp found
  simp

theorem model_id {t : String} {spec : ModelSpec} (found : catalog.model t = some spec) :
    spec.id = t := by
  simpa using List.find?_some found

/-- Ids of one kind are as many models of that kind. -/
theorem models_of_kind {kind : ModelKind} : ∀ {ids : List String},
    (∀ t ∈ ids, (catalog.model t).map ModelSpec.kind = some kind) →
      (ids.filterMap catalog.model).length = ids.length ∧
        ∀ m ∈ ids.filterMap catalog.model, m.kind = kind
  | [], _ => by simp
  | t :: rest, all => by
      obtain ⟨here, others⟩ := List.forall_mem_cons.mp all
      obtain ⟨spec, found, rfl⟩ := Option.map_eq_some_iff.mp here
      obtain ⟨count, kinds⟩ := models_of_kind others
      rw [List.filterMap_cons_some found]
      exact ⟨by simp [count], List.forall_mem_cons.mpr ⟨rfl, kinds⟩⟩

variable (valid : catalog.fields.Valid)

include valid

/-- The targets of a route or a bare id are of one kind, and one for embeddings. -/
theorem routeTargets_kind (route : String) : ∃ kind,
    (∀ m ∈ catalog.routeTargets route, m.kind = kind) ∧
      (kind = .embedding → (catalog.routeTargets route).length ≤ 1) := by
  unfold routeTargets
  cases found : catalog.routes.lookup route with
  | some ids =>
      have sound := valid.routes_sound _ (lookup_mem found)
      obtain ⟨kind, all, alone⟩ := sound.one_kind
      obtain ⟨count, kinds⟩ := models_of_kind all
      exact ⟨kind, kinds, fun embedding => (count.trans (alone embedding)).le⟩
  | none =>
      cases catalog.model route with
      | none => exact ⟨.chat, by simp, by simp⟩
      | some spec => exact ⟨spec.kind, by simp, by simp⟩

/-- What a route resolves to is of the kind asked for. -/
theorem routeTargets_asked {kind : ModelKind} {route : String}
    (first : (catalog.routeTargets route).head?.map ModelSpec.kind = some kind) :
    catalog.routeTargets route ≠ [] ∧ (∀ m ∈ catalog.routeTargets route, m.kind = kind) ∧
      (kind = .embedding → (catalog.routeTargets route).length ≤ 1) := by
  obtain ⟨common, kinds, alone⟩ := routeTargets_kind valid route
  obtain ⟨m, head, rfl⟩ := Option.map_eq_some_iff.mp first
  have mem := List.mem_of_head? head
  have same := kinds m mem
  refine ⟨List.ne_nil_of_mem mem, fun other there => (kinds other there).trans same.symm, ?_⟩
  exact fun embedding => alone (same.symm.trans embedding)

/-- The picker's order, a choice in front. -/
theorem picker_targets {route : String} (picked : route ∈ catalog.selectable) :
    (∀ t ∈ route :: catalog.selectable.filter (fun m => m != route),
        (catalog.model t).map ModelSpec.kind = some .chat) ∧
      (route :: catalog.selectable.filter (fun m => m != route)).Nodup := by
  constructor
  · intro t mem
    rcases List.mem_cons.mp mem with rfl | mem
    · exact valid.selectable_chat _ picked
    · exact valid.selectable_chat _ (List.mem_filter.mp mem).1
  · refine List.nodup_cons.mpr ⟨by simp, valid.selectable_once.filter _⟩

theorem resolve_kind {name : Option String} {kind : ModelKind} {route : String}
    {targets : List ModelSpec} (resolved : catalog.resolve name kind = some (route, targets)) :
    targets ≠ [] ∧ (∀ m ∈ targets, m.kind = kind) ∧
      (kind = .embedding → targets.length ≤ 1) := by
  unfold resolve at resolved
  split_ifs at resolved with picked asked
  · obtain ⟨rfl, picked⟩ := picked
    obtain ⟨-, rfl⟩ := Prod.mk.inj (Option.some.inj resolved)
    obtain ⟨count, kinds⟩ := models_of_kind (picker_targets valid picked).1
    refine ⟨?_, kinds, nofun⟩
    rw [← List.length_pos_iff, count]
    exact Nat.succ_pos _
  · obtain ⟨-, rfl⟩ := Prod.mk.inj (Option.some.inj resolved)
    exact routeTargets_asked valid asked

/-- The default route of chats resolves. -/
theorem default_resolves {name : Option String}
    (unnamed : catalog.routeName name .chat = catalog.defaultChat) :
    ∃ resolved, catalog.resolve name .chat = some resolved := by
  unfold resolve
  rw [unnamed]
  by_cases picked : catalog.defaultChat ∈ catalog.selectable
  · rw [if_pos ⟨rfl, picked⟩]
    exact ⟨_, rfl⟩
  · rw [if_neg fun both => picked both.2, if_pos]
    · exact ⟨_, rfl⟩
    · obtain ⟨ids, found, kind⟩ := valid.default_chat
      have found : catalog.routes.lookup catalog.defaultChat = some ids := found
      unfold routeTargets
      rw [found]
      cases ids with
      | nil => simp at kind
      | cons t rest =>
          obtain ⟨spec, known, chat⟩ := Option.map_eq_some_iff.mp kind
          have known : catalog.model t = some spec := known
          simp only [List.filterMap_cons_some known, List.head?_cons, Option.map_some, chat]

/-- **A valid catalog resolves well.** -/
theorem resolvesWell : catalog.ResolvesWell where
  embedding_alone name route targets resolved := by
    obtain ⟨nonempty, kinds, alone⟩ := resolve_kind valid resolved
    have one : targets.length = 1 :=
      le_antisymm (alone rfl) (List.length_pos_iff.mpr nonempty)
    obtain ⟨m, rfl⟩ := List.length_eq_one_iff.mp one
    exact ⟨m, rfl, kinds m List.mem_cons_self⟩
  chat_models name route targets resolved := by
    obtain ⟨nonempty, kinds, -⟩ := resolve_kind valid resolved
    exact ⟨nonempty, kinds⟩
  picker_once name route targets resolved picked := by
    unfold resolve at resolved
    split_ifs at resolved with chosen asked
    · obtain ⟨rfl, rfl⟩ := Prod.mk.inj (Option.some.inj resolved)
      obtain ⟨-, once⟩ := picker_targets valid picked
      refine once.filterMap fun first second m here there => ?_
      exact (model_id here).symm.trans (model_id there)
    · obtain ⟨rfl, -⟩ := Prod.mk.inj (Option.some.inj resolved)
      exact absurd ⟨rfl, picked⟩ chosen
  accepted_resolve name allowAny accepted := by
    cases name with
    | none => exact default_resolves valid rfl
    | some n =>
        simp only [checkChoice] at accepted
        split_ifs at accepted with picked
        · by_cases blank : n = ""
          · refine default_resolves valid ?_
            simp [routeName, blank]
          · have named : catalog.routeName (some n) .chat = n := by simp [routeName, blank]
            unfold resolve
            rw [named, if_pos ⟨rfl, picked⟩]
            exact ⟨_, rfl⟩
        · obtain ⟨resolved, found, -⟩ := Option.map_eq_some_iff.mp accepted
          exact ⟨resolved, found⟩

end

/-! ## Pruning -/

/-- The name is that of a route or of a model. -/
def names (catalog : Catalog) (name : String) : Bool :=
  (catalog.routes.lookup name).isSome || (catalog.model name).isSome

/-- The model with this id is the provider's. -/
def ServedBy (catalog : Catalog) (provider modelId : String) : Prop :=
  ∃ m ∈ catalog.models, m.id = modelId ∧ m.provider = provider

/-- A route keeps a model without the provider. -/
def Keeps (catalog : Catalog) (provider route : String) : Prop :=
  ∃ m ∈ catalog.routeTargets route, m.provider ≠ provider

/-- The provider and its models are nowhere in what is left. -/
structure Without (catalog left : Catalog) (provider : String) : Prop where
  providers : ∀ entry ∈ left.providers, entry.1 ≠ provider
  models : ∀ m ∈ left.models, m.provider ≠ provider ∧ ¬catalog.ServedBy provider m.id
  routes : ∀ route ∈ left.routes, ∀ t ∈ route.2, ¬catalog.ServedBy provider t
  picker : ∀ t ∈ left.selectable, ¬catalog.ServedBy provider t

/-- Resolving, with the provider's models filtered out of the targets, for a name that still
exists. -/
def resolveFiltered (catalog left : Catalog) (provider : String) (name : Option String)
    (kind : ModelKind) : Option (String × List ModelSpec) :=
  (catalog.resolve name kind).bind fun resolved =>
    let rest := resolved.2.filter fun m => m.provider != provider
    if rest ≠ [] ∧ left.names resolved.1 then some (resolved.1, rest) else none

section

variable {host : Host} {catalog left : Catalog} {provider : String}

theorem lookup_pruned (ids : List String) (key : String) :
    ∀ {routes : List (String × List String)}, (routes.map Prod.fst).Nodup →
      ((routes.filter fun route => route.2.any ids.contains).map fun route =>
        (route.1, route.2.filter ids.contains)).lookup key =
        (routes.lookup key).bind fun targets =>
          if targets.any ids.contains then some (targets.filter ids.contains) else none
  | [], _ => rfl
  | (name, targets) :: rest, once => by
      obtain ⟨fresh, once⟩ := List.nodup_cons.mp once
      have ih := lookup_pruned ids key once
      by_cases here : key = name
      · subst here
        have gone : rest.lookup key = none := by
          refine List.lookup_eq_none_iff.mpr fun entry mem => ?_
          simp only [bne_iff_ne, ne_eq]
          rintro rfl
          exact fresh (List.mem_map.mpr ⟨entry, mem, rfl⟩)
        rw [gone] at ih
        rw [List.lookup_cons_self, Option.bind_some, List.filter_cons]
        split
        · rw [List.map_cons, List.lookup_cons_self]
        · exact ih
      · have other : (key == name) = false := beq_false_of_ne here
        rw [List.lookup_cons, other, List.filter_cons]
        split
        · rw [List.map_cons, List.lookup_cons, other]
          exact ih
        · exact ih

/-- A model that another provider serves is left, and no other. -/
theorem model_left {models : List ModelSpec} (unique : (models.map ModelSpec.id).Nodup)
    (t : String) :
    (models.filter fun m => m.provider != provider).find? (fun m => m.id == t) =
      (models.find? fun m => m.id == t).filter fun m => m.provider != provider := by
  induction models with
  | nil => rfl
  | cons m rest ih =>
      obtain ⟨fresh, unique⟩ := List.nodup_cons.mp unique
      have ih := ih unique
      by_cases here : m.id = t
      · subst here
        have gone : rest.find? (fun other => other.id == m.id) = none := by
          refine List.find?_eq_none.mpr fun other mem same => ?_
          exact fresh (List.mem_map.mpr ⟨other, mem, by simpa using same⟩)
        rw [gone] at ih
        by_cases keeps : m.provider = provider
        · simp [keeps, ih, Option.filter]
        · simp [keeps, Option.filter]
      · have other : (m.id == t) = false := beq_false_of_ne here
        rw [List.find?_cons, other, List.filter_cons]
        split
        · rw [List.find?_cons, other]
          exact ih
        · exact ih

theorem mem_keptIds {t : String} : t ∈ catalog.keptIds provider ↔
    ∃ m, catalog.model t = some m ∧ m.provider ≠ provider := by
  unfold keptIds
  constructor
  · intro mem
    obtain ⟨m, there, rfl⟩ := List.mem_map.mp mem
    obtain ⟨known, other⟩ := List.mem_filter.mp there
    refine ⟨m, ?_, by simpa using other⟩
    cases found : catalog.model m.id with
    | none => simpa using List.find?_eq_none.mp found m known
    | some here =>
        exact congrArg some (List.inj_on_of_nodup_map catalog.unique_ids (model_mem found) known
          (model_id found))
  · rintro ⟨m, found, other⟩
    exact List.mem_map.mpr ⟨m, List.mem_filter.mpr ⟨model_mem found, by simpa using other⟩,
      model_id found⟩

theorem not_served_of_kept {t : String} (kept : t ∈ catalog.keptIds provider) :
    ¬catalog.ServedBy provider t := by
  obtain ⟨m, found, other⟩ := mem_keptIds.mp kept
  rintro ⟨served, known, id, own⟩
  have same := List.inj_on_of_nodup_map catalog.unique_ids known (model_mem found)
    (id.trans (model_id found).symm)
  exact other (same ▸ own)

/-- A name with a target left still exists. -/
theorem left_names {route : String} (some_left : left.routeTargets route ≠ []) :
    left.names route = true := by
  unfold routeTargets at some_left
  unfold names
  cases found : left.routes.lookup route with
  | some targets => rfl
  | none =>
      rw [found] at some_left
      cases known : left.model route with
      | some m => simp
      | none => simp [known] at some_left

variable (same : left.fields = catalog.pruned provider)

include same

theorem left_without : Without catalog left provider where
  providers entry mem := by
    have providers : left.providers = (catalog.pruned provider).providers :=
      congrArg CatalogFields.providers same
    rw [providers] at mem
    simpa using (List.mem_filter.mp mem).2
  models m mem := by
    have models : left.models = (catalog.pruned provider).models :=
      congrArg CatalogFields.models same
    rw [models] at mem
    refine ⟨by simpa using (List.mem_filter.mp mem).2, not_served_of_kept ?_⟩
    exact List.mem_map.mpr ⟨m, mem, rfl⟩
  routes route mem t there := by
    have routes : left.routes = (catalog.pruned provider).routes :=
      congrArg CatalogFields.routes same
    rw [routes] at mem
    obtain ⟨whole, -, rfl⟩ := List.mem_map.mp mem
    exact not_served_of_kept (by simpa using (List.mem_filter.mp there).2)
  picker t mem := by
    have selectable : left.selectable = (catalog.pruned provider).selectable :=
      congrArg CatalogFields.selectable same
    rw [selectable] at mem
    exact not_served_of_kept (by simpa using (List.mem_filter.mp mem).2)

theorem left_model (t : String) :
    left.model t = (catalog.model t).filter fun m => m.provider != provider := by
  have models : left.models = (catalog.pruned provider).models :=
    congrArg CatalogFields.models same
  unfold model
  rw [models]
  exact model_left catalog.unique_ids t

theorem left_lookup (key : String) : left.routes.lookup key =
    (catalog.routes.lookup key).bind fun targets =>
      if targets.any (catalog.keptIds provider).contains then
        some (targets.filter (catalog.keptIds provider).contains)
      else none := by
  have routes : left.routes = (catalog.pruned provider).routes :=
    congrArg CatalogFields.routes same
  rw [routes]
  exact lookup_pruned _ key catalog.routes_once

/-- The models of the ids that are kept. -/
theorem left_models (ids : List String) :
    (ids.filter (catalog.keptIds provider).contains).filterMap left.model =
      (ids.filterMap catalog.model).filter fun m => m.provider != provider := by
  rw [List.filterMap_filter, List.filter_filterMap]
  refine List.filterMap_congr fun t _ => ?_
  rw [left_model same]
  split
  · rfl
  · rename_i dropped
    cases found : catalog.model t with
    | none => rfl
    | some m =>
        have own : m.provider = provider := by
          by_contra other
          exact dropped (List.contains_iff_mem.mpr (mem_keptIds.mpr ⟨m, found, other⟩))
        simp [own, Option.filter]

theorem left_selectable :
    left.selectable = catalog.selectable.filter (catalog.keptIds provider).contains :=
  congrArg CatalogFields.selectable same

theorem left_routeName (name : Option String) (kind : ModelKind) :
    left.routeName name kind = catalog.routeName name kind := by
  have chat : left.defaultChat = catalog.defaultChat := congrArg CatalogFields.defaultChat same
  have embedding : left.defaultEmbedding = catalog.defaultEmbedding :=
    congrArg CatalogFields.defaultEmbedding same
  unfold routeName
  rw [chat, embedding]

omit same in
theorem model_kept {t : String} : t ∈ catalog.keptIds provider ↔
    ∃ m, (catalog.model t).filter (fun m => m.provider != provider) = some m := by
  rw [mem_keptIds]
  constructor
  · rintro ⟨m, found, other⟩
    exact ⟨m, by rw [found]; simp [Option.filter, other]⟩
  · rintro ⟨m, kept⟩
    obtain ⟨found, other⟩ := Option.filter_eq_some_iff.mp kept
    exact ⟨m, found, by simpa using other⟩

variable (valid : catalog.fields.Valid)

include valid

/-- The targets of a route without the provider are its targets, those of the provider left
out. -/
theorem left_routeTargets (route : String) : left.routeTargets route =
    (catalog.routeTargets route).filter fun m => m.provider != provider := by
  unfold routeTargets
  rw [left_lookup same]
  cases found : catalog.routes.lookup route with
  | none =>
      rw [Option.bind_none]
      dsimp only
      rw [left_model same]
      cases catalog.model route with
      | none => rfl
      | some m => by_cases own : m.provider = provider <;> simp [own, Option.filter]
  | some targets =>
      rw [Option.bind_some]
      by_cases keeps : targets.any (catalog.keptIds provider).contains = true
      · rw [if_pos keeps]
        exact left_models same targets
      · rw [if_neg keeps]
        have apart : catalog.model route = none := (valid.routes_sound _ (lookup_mem found)).apart
        have none_kept : targets.filter (catalog.keptIds provider).contains = [] := by
          refine List.filter_eq_nil_iff.mpr fun t mem kept => keeps ?_
          exact List.any_eq_true.mpr ⟨t, mem, kept⟩
        have nothing := left_models same targets
        rw [none_kept] at nothing
        dsimp only
        rw [left_model same, apart, ← nothing]
        rfl

/-- A picker model of the provider is no name any more. -/
theorem left_picker_gone {route : String} (picked : route ∈ catalog.selectable)
    (dropped : route ∉ catalog.keptIds provider) : left.names route = false := by
  have gone : left.model route = none := by
    rw [left_model same]
    by_contra kept
    obtain ⟨m, found⟩ := Option.ne_none_iff_exists'.mp kept
    exact dropped (model_kept.mpr ⟨m, found⟩)
  have no_route : catalog.routes.lookup route = none := by
    by_contra found
    obtain ⟨targets, found⟩ := Option.ne_none_iff_exists'.mp found
    have apart : catalog.model route = none := (valid.routes_sound _ (lookup_mem found)).apart
    have known : (catalog.model route).map ModelSpec.kind = some .chat :=
      valid.selectable_chat _ picked
    rw [apart] at known
    cases known
  unfold names
  rw [gone, left_lookup same, no_route]
  rfl

/-- Off the picker: the targets of a route or a bare id. -/
theorem resolve_route_commutes {route : String} {kind : ModelKind} :
    (if (left.routeTargets route).head?.map ModelSpec.kind = some kind then
        some (route, left.routeTargets route) else none) =
      (if (catalog.routeTargets route).head?.map ModelSpec.kind = some kind then
        some (route, catalog.routeTargets route) else none).bind fun resolved =>
          let rest := resolved.2.filter fun m => m.provider != provider
          if rest ≠ [] ∧ left.names resolved.1 then some (resolved.1, rest) else none := by
  obtain ⟨common, kinds, -⟩ := routeTargets_kind valid route
  have filtered := left_routeTargets same valid route
  cases targets : left.routeTargets route with
  | nil =>
      rw [targets] at filtered
      rw [if_neg nofun]
      split
      · rw [Option.bind_some]
        dsimp only
        rw [← filtered, if_neg fun both => both.1 rfl]
      · rfl
  | cons m rest =>
      rw [targets] at filtered
      have there : m ∈ catalog.routeTargets route := by
        refine (List.mem_filter (p := fun m => m.provider != provider)).mp ?_ |>.1
        rw [← filtered]
        exact List.mem_cons_self
      have first : (catalog.routeTargets route).head?.map ModelSpec.kind = some common := by
        cases all : catalog.routeTargets route with
        | nil =>
            rw [all] at there
            cases there
        | cons n others =>
            rw [List.head?_cons, Option.map_some, kinds n (all ▸ List.mem_cons_self)]
      have exists_ : left.names route = true :=
        left_names (by rw [targets]; exact List.cons_ne_nil _ _)
      rw [first, List.head?_cons, Option.map_some, kinds m there]
      split
      · rw [Option.bind_some]
        dsimp only
        rw [← filtered, if_pos ⟨List.cons_ne_nil _ _, exists_⟩]
      · rfl

/-- **Resolving without the provider is resolving, with its models filtered out.** -/
theorem resolve_commutes (name : Option String) (kind : ModelKind) :
    left.resolve name kind = resolveFiltered catalog left provider name kind := by
  unfold resolveFiltered resolve
  rw [left_routeName same]
  generalize catalog.routeName name kind = route
  by_cases picked : kind = .chat ∧ route ∈ catalog.selectable
  · obtain ⟨rfl, picked⟩ := picked
    rw [if_pos (show ModelKind.chat = .chat ∧ route ∈ catalog.selectable from ⟨rfl, picked⟩),
      Option.bind_some]
    dsimp only
    by_cases kept : route ∈ catalog.keptIds provider
    · have still : route ∈ left.selectable := by
        rw [left_selectable same]
        exact List.mem_filter.mpr ⟨picked, List.contains_iff_mem.mpr kept⟩
      have order : route :: left.selectable.filter (fun m => m != route) =
          (route :: catalog.selectable.filter fun m => m != route).filter
            (catalog.keptIds provider).contains := by
        rw [left_selectable same, List.filter_cons_of_pos (List.contains_iff_mem.mpr kept),
          List.filter_filter, List.filter_filter]
        simp only [Bool.and_comm]
      have targets := left_models same (route :: catalog.selectable.filter fun m => m != route)
      rw [← order] at targets
      obtain ⟨m, known⟩ := model_kept.mp kept
      have here : left.model route = some m := by rw [left_model same, known]
      rw [if_pos ⟨rfl, still⟩, ← targets, List.filterMap_cons_some here,
        if_pos ⟨List.cons_ne_nil _ _, by simp [names, here]⟩]
    · have gone := left_picker_gone same valid picked kept
      have dropped : route ∉ left.selectable := by
        rw [left_selectable same]
        exact fun mem => kept (List.contains_iff_mem.mp (List.mem_filter.mp mem).2)
      have nothing : left.routeTargets route = [] := by
        by_contra some_left
        rw [left_names some_left] at gone
        cases gone
      rw [if_neg fun both => dropped both.2, nothing, if_neg nofun,
        if_neg fun both => by rw [gone] at both; cases both.2]
  · have unpicked : ¬(kind = .chat ∧ route ∈ left.selectable) := by
      rintro ⟨chat, mem⟩
      rw [left_selectable same] at mem
      exact picked ⟨chat, (List.mem_filter.mp mem).1⟩
    rw [if_neg picked, if_neg unpicked]
    exact resolve_route_commutes same valid

end

/-! ## The pruned catalog is valid -/

section

variable {host : Host} {catalog : Catalog} {provider : String} (valid : catalog.fields.Valid)

theorem pruned_byId (t : String) : (catalog.pruned provider).byId t =
    (catalog.model t).filter fun m => m.provider != provider :=
  model_left catalog.unique_ids t

/-- A kept model has the kind it had. -/
theorem pruned_kind {t : String} {kind : ModelKind} (kept : t ∈ catalog.keptIds provider)
    (known : (catalog.model t).map ModelSpec.kind = some kind) :
    ((catalog.pruned provider).byId t).map ModelSpec.kind = some kind := by
  obtain ⟨m, found, other⟩ := mem_keptIds.mp kept
  rw [found] at known
  rw [pruned_byId, found]
  simpa [Option.filter, other] using known

theorem lookup_filter {α : Type} {key : String} {kept : String × α → Bool}
    (keeps : ∀ a, kept (key, a) = true) : ∀ {xs : List (String × α)},
    (xs.filter kept).lookup key = xs.lookup key
  | [] => rfl
  | (name, a) :: rest => by
      have ih := @lookup_filter α key kept keeps rest
      by_cases here : key = name
      · subst here
        rw [List.filter_cons_of_pos (keeps a), List.lookup_cons_self, List.lookup_cons_self]
      · have other : (key == name) = false := beq_false_of_ne here
        rw [List.filter_cons, List.lookup_cons, other]
        split
        · rw [List.lookup_cons, other]
          exact ih
        · exact ih

include valid

theorem pruned_route {name : String} {targets : List String}
    (known : (name, targets) ∈ catalog.routes)
    (keeps : targets.any (catalog.keptIds provider).contains = true) :
    CatalogFields.SoundRoute (catalog.pruned provider) name
      (targets.filter (catalog.keptIds provider).contains) := by
  have sound := valid.routes_sound _ known
  obtain ⟨kind, all, alone⟩ := sound.one_kind
  obtain ⟨t, mem, kept⟩ := List.any_eq_true.mp keeps
  have there : t ∈ targets.filter (catalog.keptIds provider).contains :=
    List.mem_filter.mpr ⟨mem, kept⟩
  refine ⟨?_, List.ne_nil_of_mem there, kind, ?_, ?_⟩
  · rw [pruned_byId, show catalog.model name = none from sound.apart]
    rfl
  · intro other mem
    obtain ⟨listed, kept⟩ := List.mem_filter.mp mem
    exact pruned_kind (List.contains_iff_mem.mp kept) (all other listed)
  · intro embedding
    have bound := List.length_filter_le (catalog.keptIds provider).contains targets
    have positive := List.length_pos_of_mem there
    have one := alone embedding
    dsimp only at one
    omega

theorem pruned_default {kind : ModelKind} {route : String}
    (sound : CatalogFields.SoundDefault catalog.fields kind route)
    (keeps : catalog.Keeps provider route) :
    CatalogFields.SoundDefault (catalog.pruned provider) kind route := by
  obtain ⟨targets, found, first⟩ := sound
  have found : catalog.routes.lookup route = some targets := found
  obtain ⟨m, mem, other⟩ := keeps
  unfold routeTargets at mem
  rw [found] at mem
  obtain ⟨t, listed, known⟩ := List.mem_filterMap.mp mem
  have kept : t ∈ catalog.keptIds provider := mem_keptIds.mpr ⟨m, known, other⟩
  have some_kept : targets.any (catalog.keptIds provider).contains = true :=
    List.any_eq_true.mpr ⟨t, listed, List.contains_iff_mem.mpr kept⟩
  have left := lookup_pruned (catalog.keptIds provider) route catalog.routes_once
  rw [found, Option.bind_some, if_pos some_kept] at left
  refine ⟨_, left, ?_⟩
  obtain ⟨-, nonempty, common, all, -⟩ := pruned_route valid (lookup_mem found) some_kept
  obtain ⟨-, -, before, were, -⟩ := valid.routes_sound _ (lookup_mem found)
  have same : before = kind := by
    cases targets with
    | nil => cases listed
    | cons head rest =>
        rw [List.head?_cons, Option.bind_some, were head List.mem_cons_self] at first
        exact Option.some.inj first
  subst same
  cases ids : targets.filter (catalog.keptIds provider).contains with
  | nil => exact absurd ids nonempty
  | cons head rest =>
      rw [List.head?_cons, Option.bind_some]
      have mem : head ∈ targets.filter (catalog.keptIds provider).contains :=
        ids ▸ List.mem_cons_self
      obtain ⟨listed, kept⟩ := List.mem_filter.mp mem
      exact pruned_kind (List.contains_iff_mem.mp kept) (were head listed)

theorem pruned_valid (chat : catalog.Keeps provider catalog.defaultChat)
    (embedding : catalog.Keeps provider catalog.defaultEmbedding) :
    (catalog.pruned provider).Valid where
  unique_ids := valid.unique_ids.sublist (List.filter_sublist.map _)
  providers_known m mem := by
    obtain ⟨known, other⟩ := List.mem_filter.mp mem
    have before := valid.providers_known m known
    have same : (catalog.pruned provider).providers.lookup m.provider =
        catalog.providers.lookup m.provider := lookup_filter fun _ => other
    rw [same]
    exact before
  dimensioned m mem := valid.dimensioned m (List.mem_filter.mp mem).1
  routes_sound route mem := by
    obtain ⟨whole, kept, rfl⟩ := List.mem_map.mp mem
    obtain ⟨known, keeps⟩ := List.mem_filter.mp kept
    exact pruned_route valid known keeps
  selectable_chat t mem := by
    obtain ⟨picked, kept⟩ := List.mem_filter.mp mem
    exact pruned_kind (List.contains_iff_mem.mp kept) (valid.selectable_chat t picked)
  selectable_once := valid.selectable_once.filter _
  default_chat := pruned_default valid valid.default_chat chat
  default_embedding := pruned_default valid valid.default_embedding embedding

end

section

variable {host : Host}

theorem validated_of_valid {fields : CatalogFields} (valid : fields.Valid) :
    ∃ catalog, fields.validated host = .ok catalog ∧ catalog.fields = fields := by
  have checked : fields.validateReferences host = .ok () :=
    CatalogFields.validateReferences_ok_iff.mpr valid
  unfold CatalogFields.validated
  split
  · rename_i failed
    rw [checked] at failed
    cases failed
  · exact ⟨_, rfl, rfl⟩

/-- **A valid catalog resolves well; without a provider, while both default routes keep a model,
it is valid, without the provider, and resolves to what it did with the provider's models
filtered out.** -/
theorem drop_commutes {catalog : Catalog}
    (validated : catalog.fields.validateReferences host = .ok ()) :
    catalog.ResolvesWell ∧ ∀ provider, catalog.Keeps provider catalog.defaultChat →
      catalog.Keeps provider catalog.defaultEmbedding →
      ∃ left, catalog.withoutProvider host provider = .ok left ∧
        left.fields.validateReferences host = .ok () ∧ Without catalog left provider ∧
        left.ResolvesWell ∧
        ∀ name kind, left.resolve name kind = resolveFiltered catalog left provider name kind := by
  have valid := CatalogFields.validateReferences_ok_iff.mp validated
  refine ⟨resolvesWell valid, fun provider chat embedding => ?_⟩
  have pruned := pruned_valid valid chat embedding
  obtain ⟨left, found, same⟩ := @validated_of_valid host _ pruned
  have still : left.fields.Valid := same ▸ pruned
  exact ⟨left, found, CatalogFields.validateReferences_ok_iff.mpr still, left_without same,
    resolvesWell still, resolve_commutes same valid⟩

end

/-! ## Pole -/

/-- A provider on the box and one for tests. -/
def mockedCatalog : Catalog where
  providers := [("local", {}), ("mock", {})]
  models := [
    { id := "local/small", provider := "local" }, { id := "mock/echo", provider := "mock" },
    { id := "local/embed", provider := "local", kind := .embedding, dimensions := some 768 }]
  routes := [("chat-default", ["mock/echo", "local/small"]), ("chat-mock", ["mock/echo"]),
    ("embed-default", ["local/embed"])]
  defaultChat := "chat-default"
  defaultEmbedding := "embed-default"
  selectable := ["mock/echo", "local/small"]
  unique_ids := by decide
  providers_known := by decide

theorem drop_commutes_pole : mockedCatalog.ResolvesWell ∧
    ∃ left, mockedCatalog.withoutProvider Host.plain "mock" = .ok left ∧
      left.fields.validateReferences Host.plain = .ok () ∧ Without mockedCatalog left "mock" ∧
      left.ResolvesWell ∧ ∀ name kind, left.resolve name kind =
        resolveFiltered mockedCatalog left "mock" name kind := by
  have valid : mockedCatalog.fields.validateReferences Host.plain = .ok () := by decide +kernel
  obtain ⟨well, dropped⟩ := drop_commutes valid
  refine ⟨well, dropped "mock" ?_ ?_⟩
  · exact ⟨{ id := "local/small", provider := "local" }, by decide, by decide⟩
  · exact ⟨_, List.mem_singleton.mpr rfl, by decide⟩

/-- The choice of a dropped model is refused, and the default falls back to what is left. -/
example : (mockedCatalog.withoutProvider Host.plain "mock").toOption.map (fun left =>
    (left.resolve (some "mock/echo") .chat, (left.resolve none .chat).map fun resolved =>
      resolved.2.map ModelSpec.id)) = some (none, some ["local/small"]) := by
  decide +kernel

end Catalog

end OpsAssist.Gateway
