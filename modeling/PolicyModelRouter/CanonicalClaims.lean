import Mathlib.Data.List.Forall2
import PolicyModelRouter.ClaimsValidation
import PolicyModelRouter.VerificationSpecification

/-!
# The canonical form of claims

Documents that differ only in the order of the models and in the order or the repetition
of the elements of set-like arrays are validated to equal claims. The dump of an envelope
is validated to the envelope itself.
-/

namespace PolicyModelRouter.CanonicalClaims
open AuthorizationContract CanonicalJson ClaimsValidation DocumentFields GovernedVocabularies
open RuntimeControl SortedSets StrippedTexts TrustedKeys UtcTimestamps Uuids

def SameElements (v w : PyValue) : Prop :=
  ∃ xs ys, v = .list xs ∧ w = .list ys ∧ ∀ x, x ∈ xs ↔ x ∈ ys

/-- The documents agree on all fields but these. -/
def AgreeBut (names : List String) (f g : Fields) : Prop :=
  ∀ key, key ∉ names.map points → f.lookup key = g.lookup key

def RelatedIn (R : PyValue → PyValue → Prop) (f g : Fields) (name : String) : Prop :=
  Option.Rel R (f.lookup (points name)) (g.lookup (points name))

def SameModel (v w : PyValue) : Prop :=
  ∃ f g, v = .dict f ∧ w = .dict g ∧ AgreeBut ["allowed_data_classes"] f g ∧
    RelatedIn SameElements f g "allowed_data_classes"

/-- The same models in another order. -/
def SameModels (v w : PyValue) : Prop :=
  ∃ xs ys zs, v = .list xs ∧ w = .list ys ∧ xs.Perm zs ∧ List.Forall₂ SameModel zs ys

def scopeSets : List String := ["allowed_tools", "permissions", "human_approval_points"]

def SameScope (v w : PyValue) : Prop :=
  ∃ f g, v = .dict f ∧ w = .dict g ∧ AgreeBut ("models" :: scopeSets) f g ∧
    RelatedIn SameModels f g "models" ∧ ∀ name ∈ scopeSets, RelatedIn SameElements f g name

def SameClaims (v w : PyValue) : Prop :=
  ∃ f g, v = .dict f ∧ w = .dict g ∧ AgreeBut ["audience", "scope"] f g ∧
    RelatedIn SameElements f g "audience" ∧ RelatedIn SameScope f g "scope"

section Parsing

variable {α : Type} {parse : PyValue → Option α} {xs ys : List PyValue} {as : List α}

theorem mapM_eq_some :
    xs.mapM parse = some as ↔ List.Forall₂ (fun x a => parse x = some a) xs as := by
  induction xs generalizing as with
  | nil => simp [List.forall₂_nil_left_iff, eq_comm]
  | cons x xs ih =>
    rw [List.mapM_cons, List.forall₂_cons_left_iff]
    simp only [Option.bind_eq_bind, Option.bind_eq_some_iff, ih, Option.pure_def, Option.some.injEq]
    constructor
    · rintro ⟨a, ha, rest, hrest, rfl⟩
      exact ⟨a, rest, ha, hrest, rfl⟩
    · rintro ⟨a, rest, ha, hrest, rfl⟩
      exact ⟨a, ha, rest, hrest, rfl⟩

/-- Arrays with the same elements are parsed to lists with the same elements. -/
theorem mapM_of_same_elements (same : ∀ x, x ∈ xs ↔ x ∈ ys) (h : xs.mapM parse = some as) :
    ∃ bs, ys.mapM parse = some bs ∧ ∀ a, a ∈ as ↔ a ∈ bs := by
  have hmem : ∀ {xs as}, List.Forall₂ (fun x a => parse x = some a) xs as →
      ∀ a, a ∈ as ↔ ∃ x ∈ xs, parse x = some a := by
    intro xs as hall
    induction hall with
    | nil => simp
    | cons hx _ ih =>
      intro a
      simp [ih, hx, eq_comm]
  have hparsed : ∀ {zs : List PyValue}, (∀ z ∈ zs, ∃ a, parse z = some a) →
      ∃ bs, List.Forall₂ (fun x a => parse x = some a) zs bs := by
    intro zs hzs
    induction zs with
    | nil => exact ⟨[], .nil⟩
    | cons z zs ih =>
      obtain ⟨a, ha⟩ := hzs z List.mem_cons_self
      obtain ⟨bs, hbs⟩ := ih fun y hy => hzs y (List.mem_cons_of_mem _ hy)
      exact ⟨a :: bs, .cons ha hbs⟩
  have hall := mapM_eq_some.mp h
  obtain ⟨bs, hbs⟩ : ∃ bs, List.Forall₂ (fun x a => parse x = some a) ys bs := hparsed fun y hy => by
    have hy := (same y).mpr hy
    clear h same
    induction hall with
    | nil => cases hy
    | cons hx _ ih =>
      rcases List.mem_cons.mp hy with rfl | hy
      · exact ⟨_, hx⟩
      · exact ih hy
  refine ⟨bs, mapM_eq_some.mpr hbs, fun a => ?_⟩
  rw [hmem hall, hmem hbs]
  exact exists_congr fun x => and_congr_left' (same x)

private theorem items_of_same_elements (parse : PyValue → Option α) {v w : PyValue}
    (h : SameElements v w) :
    (items parse v = none ∧ items parse w = none) ∨
      ∃ as bs, items parse v = some as ∧ items parse w = some bs ∧ ∀ a, a ∈ as ↔ a ∈ bs := by
  obtain ⟨xs, ys, rfl, rfl, same⟩ := h
  simp only [items]
  cases hxs : xs.mapM parse with
  | some as =>
    obtain ⟨bs, hbs, hsame⟩ := mapM_of_same_elements same hxs
    exact .inr ⟨as, bs, rfl, hbs, hsame⟩
  | none =>
    cases hys : ys.mapM parse with
    | none => exact .inl ⟨rfl, rfl⟩
    | some bs =>
      obtain ⟨as, has, -⟩ := mapM_of_same_elements (fun x => (same x).symm) hys
      exact nomatch hxs.symm.trans has

/-- Set-like arrays with the same elements are read alike. -/
theorem setField_congr [DecidableEq α] {key : α → String} {injective : Function.Injective key}
    {required : Bool} {v w : PyValue} (h : SameElements v w) :
    setField key injective parse required v = setField key injective parse required w := by
  unfold setField
  rcases items_of_same_elements parse h with ⟨hv, hw⟩ | ⟨as, bs, hv, hw, hsame⟩
  · rw [hv, hw]
  · have hsorted : sortedSet key as = sortedSet key bs := sortedSet_congr injective hsame
    have hnil : as = [] ↔ bs = [] := by
      simp only [List.eq_nil_iff_forall_not_mem, hsame]
    rw [hv, hw]
    simp only [Option.bind_eq_bind, Option.bind_some, ne_eq, hnil, hsorted]

end Parsing

section Records

variable {α : Type} {names : List String} {f g : Fields} {name : String}

theorem AgreeBut.member (h : AgreeBut names f g) (parse : PyValue → Option α)
    (other : points name ∉ names.map points) : member f name parse = member g name parse := by
  rw [ClaimsValidation.member, ClaimsValidation.member, h _ other]

theorem AgreeBut.memberOr (h : AgreeBut names f g) (default : PyValue) (parse : PyValue → Option α)
    (other : points name ∉ names.map points) :
    memberOr f name default parse = memberOr g name default parse := by
  rw [ClaimsValidation.memberOr, ClaimsValidation.memberOr, h _ other]

variable {R : PyValue → PyValue → Prop}

theorem RelatedIn.values (h : RelatedIn R f g name) :
    (f.lookup (points name) = none ∧ g.lookup (points name) = none) ∨
      ∃ v w, f.lookup (points name) = some v ∧ g.lookup (points name) = some w ∧ R v w := by
  unfold RelatedIn at h
  generalize f.lookup (points name) = first at h ⊢
  generalize g.lookup (points name) = second at h ⊢
  cases h with
  | some h => exact .inr ⟨_, _, rfl, rfl, h⟩
  | none => exact .inl ⟨rfl, rfl⟩

theorem RelatedIn.member (h : RelatedIn R f g name) {parse : PyValue → Option α}
    (congr_ : ∀ v w, R v w → parse v = parse w) : member f name parse = member g name parse := by
  unfold ClaimsValidation.member
  rcases h.values with ⟨hf, hg⟩ | ⟨v, w, hf, hg, hR⟩
  · rw [hf, hg]
  · rw [hf, hg, Option.bind_some, Option.bind_some, congr_ v w hR]

theorem RelatedIn.memberOr (h : RelatedIn R f g name) {default : PyValue}
    {parse : PyValue → Option α} (congr_ : ∀ v w, R v w → parse v = parse w) :
    memberOr f name default parse = memberOr g name default parse := by
  unfold ClaimsValidation.memberOr
  rcases h.values with ⟨hf, hg⟩ | ⟨v, w, hf, hg, hR⟩
  · rw [hf, hg]
  · rw [hf, hg, Option.getD_some, Option.getD_some, congr_ v w hR]

theorem RelatedIn.isSome (h : RelatedIn R f g name) :
    (f.lookup (points name)).isSome = (g.lookup (points name)).isSome := by
  rcases h.values with ⟨hf, hg⟩ | ⟨v, w, hf, hg, -⟩
  · rw [hf, hg]
  · rw [hf, hg]
    rfl

theorem AgreeBut.onlyFields (h : AgreeBut names f g) {allowed : List String}
    (related : ∀ name ∈ names, (f.lookup (points name)).isSome = (g.lookup (points name)).isSome) :
    onlyFields allowed f = onlyFields allowed g := by
  have hkeys : ∀ key, key ∈ f.map Prod.fst ↔ key ∈ g.map Prod.fst := by
    intro key
    rw [← isSome_lookup_iff, ← isSome_lookup_iff]
    by_cases hkey : key ∈ names.map points
    · obtain ⟨name, hname, rfl⟩ := List.mem_map.mp hkey
      rw [related name hname]
    · rw [h key hkey]
  rw [Bool.eq_iff_iff, onlyFields_iff, onlyFields_iff]
  simp only [hkeys]

variable [FieldReaders]

private theorem validateModel_congr {v w : PyValue} (h : SameModel v w) :
    validateModel v = validateModel w := by
  obtain ⟨f, g, rfl, rfl, hagree, hclasses⟩ := h
  have hfields : ∀ allowed, onlyFields allowed f = onlyFields allowed g := fun allowed =>
    hagree.onlyFields fun name hname => by
      rw [List.mem_singleton.mp hname]
      exact hclasses.isSome
  have hset : member f "allowed_data_classes" dataClassSet =
      member g "allowed_data_classes" dataClassSet := hclasses.member fun _ _ => setField_congr
  simp only [validateModel, hfields]
  rw [hagree.member _ (by decide), hagree.member _ (by decide), hagree.member _ (by decide),
    hagree.member _ (by decide), hagree.member _ (by decide), hset]

/-- The models are read alike in every order. -/
theorem validateModels_congr {v w : PyValue} (h : SameModels v w) :
    validateModels v = validateModels w := by
  obtain ⟨xs, ys, zs, rfl, rfl, hperm, hsame⟩ := h
  have hys : zs.mapM validateModel = ys.mapM validateModel := by
    induction hsame generalizing xs with
    | nil => rfl
    | cons hmodel _ ih =>
      rw [List.mapM_cons, List.mapM_cons, validateModel_congr hmodel, ih _ (List.Perm.refl _)]
  have hpermuted : ∀ {xs zs : List PyValue} {as}, xs.Perm zs → xs.mapM validateModel = some as →
      ∃ bs, zs.mapM validateModel = some bs ∧ as.Perm bs := by
    intro xs zs as hperm hxs
    obtain ⟨bs, hbs, hsame⟩ := List.perm_comp_forall₂ hperm.symm (mapM_eq_some.mp hxs)
    exact ⟨bs, mapM_eq_some.mpr hbs, hsame.symm⟩
  simp only [validateModels, items, ← hys]
  cases hxs : xs.mapM validateModel with
  | none =>
    cases hzs : zs.mapM validateModel with
    | none => rfl
    | some bs =>
      obtain ⟨as, has, -⟩ := hpermuted hperm.symm hzs
      exact nomatch hxs.symm.trans has
  | some as =>
    obtain ⟨bs, hbs, hsame⟩ := hpermuted hperm hxs
    rw [hbs]
    have hnil : as = [] ↔ bs = [] := by
      constructor
      · rintro rfl
        exact List.nil_perm.mp hsame
      · rintro rfl
        exact List.perm_nil.mp hsame
    have hnodup : (as.map fun model => model.modelId.str).Nodup ↔
        (bs.map fun model => model.modelId.str).Nodup := (hsame.map _).nodup_iff
    simp only [Option.bind_eq_bind, Option.bind_some, ne_eq, hnil, hnodup]
    split_ifs with hdistinct
    · have hsorted : sortBy (fun model => model.modelId.str) as =
          sortBy (fun model => model.modelId.str) bs := sortBy_congr (hnodup.mpr hdistinct.2) hsame
      simp only [hsorted]
    · rfl

private theorem validateScope_congr {v w : PyValue} (h : SameScope v w) :
    validateScope v = validateScope w := by
  obtain ⟨f, g, rfl, rfl, hagree, hmodels, hsets⟩ := h
  have hfields : ∀ allowed, onlyFields allowed f = onlyFields allowed g := fun allowed =>
    hagree.onlyFields fun name hname => by
      rcases List.mem_cons.mp hname with rfl | hname
      · exact hmodels.isSome
      · exact (hsets name hname).isSome
  have hset : ∀ name ∈ scopeSets, ∀ (p : String → Bool) (required : Bool) (default : PyValue),
      memberOr f name default (textSet p required) = memberOr g name default (textSet p required) :=
    fun name hname p required default => (hsets name hname).memberOr fun _ _ => setField_congr
  simp only [validateScope, hfields]
  rw [hagree.member _ (by decide), hagree.member _ (by decide), hagree.member _ (by decide),
    hmodels.member fun v w => validateModels_congr, hset _ (by decide), hset _ (by decide),
    hagree.member _ (by decide), hset _ (by decide), hagree.memberOr _ _ (by decide)]

private theorem validateClaims_congr {v w : PyValue} (h : SameClaims v w) :
    validateClaims v = validateClaims w := by
  obtain ⟨f, g, rfl, rfl, hagree, haudience, hscope⟩ := h
  have hfields : ∀ allowed, onlyFields allowed f = onlyFields allowed g := fun allowed =>
    hagree.onlyFields fun name hname => by
      rcases List.mem_cons.mp hname with rfl | hname
      · exact haudience.isSome
      · rw [List.mem_singleton.mp hname]
        exact hscope.isSome
  have hset : member f "audience" (textSet isIdentifier true) =
      member g "audience" (textSet isIdentifier true) := haudience.member fun _ _ => setField_congr
  simp only [validateClaims, hfields]
  rw [hagree.memberOr _ _ (by decide), hagree.member _ (by decide), hagree.member _ (by decide),
    hset, hagree.member _ (by decide),
    hagree.member _ (by decide), hagree.member _ (by decide), hagree.member _ (by decide),
    hagree.member _ (by decide), hscope.member fun v w => validateScope_congr,
    hagree.member _ (by decide), hagree.member _ (by decide)]

end Records

def ofJson : Json → PyValue
  | .null => .none
  | .bool b => .bool b
  | .int n => .int n
  | .str s => .str (points s)
  | .arr items => .list (items.map ofJson)
  | .obj fields => .dict (fields.map fun field => (points field.1, ofJson field.2))
termination_by v => sizeOf v
decreasing_by
  · simp only [Json.arr.sizeOf_spec]
    have := List.sizeOf_lt_of_mem ‹_ ∈ items›
    omega
  · simp only [Json.obj.sizeOf_spec]
    have := List.sizeOf_lt_of_mem ‹_ ∈ fields›
    rcases field with ⟨k, v⟩
    simp only [Prod.mk.sizeOf_spec] at this ⊢
    omega

def envelopeJson (envelope : SignedRuntimeAuthorization) : Json :=
  .obj [("protected", envelope.protected_.toJson), ("claims", envelope.claims.toJson),
    ("signature", .str envelope.signature.val)]

/-- The readers read what a dump writes for a scalar. -/
structure ReadsDumps [FieldReaders] : Prop where
  str : ∀ s, PythonText.strip s = s → FieldReaders.str (.str (points s)) = some s
  int : ∀ n, FieldReaders.int (.int n) = some n
  bool : ∀ b, FieldReaders.bool (.bool b) = some b
  uuid : ∀ u : UUID, FieldReaders.uuid (.str (points u.str)) = some u
  datetime : ∀ d, FieldReaders.datetime (.str (points (isoformat d))) = some (.utc d)

def dumpFields (fields : List (String × Json)) : Fields :=
  fields.map fun field => (points field.1, ofJson field.2)

theorem ofJson_obj (fields : List (String × Json)) : ofJson (.obj fields) = .dict (dumpFields fields) := by
  rw [ofJson, dumpFields]

theorem lookup_dumpFields (fields : List (String × Json)) (name : String) :
    (dumpFields fields).lookup (points name) = (fields.lookup name).map ofJson := by
  induction fields with
  | nil => rfl
  | cons field fields ih =>
    obtain ⟨k, v⟩ := field
    simp only [dumpFields, List.map_cons]
    by_cases hname : name = k
    · rw [hname, List.lookup_cons, List.lookup_cons, beq_self_eq_true, beq_self_eq_true]
      rfl
    · have hne : (name == k) = false := beq_eq_false_iff_ne.mpr hname
      have hpoints : (points name == points k) = false :=
        beq_eq_false_iff_ne.mpr fun h => hname (points_inj h)
      rw [List.lookup_cons, List.lookup_cons, hne, hpoints]
      exact ih

section Dumps

variable {α : Type} {fields : List (String × Json)} {name : String} {v : Json}
  {parse : PyValue → Option α}

theorem member_dump (h : fields.lookup name = some v) :
    member (dumpFields fields) name parse = parse (ofJson v) := by
  rw [member, lookup_dumpFields, h]
  rfl

theorem memberOr_dump (default : PyValue) (h : fields.lookup name = some v) :
    memberOr (dumpFields fields) name default parse = parse (ofJson v) := by
  rw [memberOr, lookup_dumpFields, h]
  rfl

theorem onlyFields_dump {names : List String} (h : ∀ name ∈ fields.map Prod.fst, name ∈ names) :
    onlyFields names (dumpFields fields) = true := by
  rw [onlyFields_iff, dumpFields, List.map_map]
  intro key hkey
  obtain ⟨field, hfield, rfl⟩ := List.mem_map.mp hkey
  exact List.mem_map_of_mem (h _ (List.mem_map_of_mem hfield))

private theorem isText_points (s : String) : (PyValue.str (points s)).isText s = true := by
  simp [PyValue.isText]

theorem enumeration_dump {members : List α} {value : α → String}
    (injective : Function.Injective value) {a : α} (h : a ∈ members) :
    enumeration members value (.str (points (value a))) = some a := by
  have hsome : (members.find? fun b => (PyValue.str (points (value a))).isText (value b)).isSome :=
    List.find?_isSome.mpr ⟨a, h, isText_points _⟩
  obtain ⟨b, hb⟩ := Option.isSome_iff_exists.mp hsome
  have hvalue := List.find?_some hb
  simp only [PyValue.isText, decide_eq_true_eq] at hvalue
  rw [enumeration, hb, injective (points_inj hvalue)]

private theorem items_dump {f : α → Json} {xs : List α} (h : ∀ a ∈ xs, parse (ofJson (f a)) = some a) :
    items parse (ofJson (.arr (xs.map f))) = some xs := by
  rw [ofJson, items, mapM_eq_some, List.map_map, List.forall₂_map_left_iff]
  exact List.forall₂_same.mpr h

private theorem setField_dump [DecidableEq α] {key : α → String} {injective : Function.Injective key}
    {required : Bool} {f : α → Json} {xs : List α}
    (h : ∀ a ∈ xs, parse (ofJson (f a)) = some a) (ascending : StrictlyAscending key xs)
    (some_ : required = true → xs ≠ []) :
    setField key injective parse required (ofJson (.arr (xs.map f))) =
      some ⟨xs, ascending, some_⟩ := by
  have hsorted : sortedSet key xs = xs := sortedSet_of_ascending ascending
  rw [setField, items_dump h]
  simp only [Option.bind_eq_bind, Option.bind_some, dif_pos some_, hsorted]

theorem literal_dump (text : String) : literal text (ofJson (.str text)) = some () := by
  rw [ofJson, literal, isText_points]
  rfl

private theorem dataClassSet_dump {classes : List DataClassification} (someClass : classes ≠ [])
    (ascending : StrictlyAscending DataClassification.value classes) :
    dataClassSet (ofJson (.arr (classes.map fun c => .str c.value))) =
      some ⟨classes, ascending, fun _ => someClass⟩ := by
  refine setField_dump (fun c _ => ?_) ascending fun _ => someClass
  rw [ofJson]
  exact enumeration_dump dataClassification_value_injective (by cases c <;> decide)

variable [FieldReaders] (reads : ReadsDumps)

include reads

theorem constrained_dump {p : String → Bool} (stripped : ∀ s, p s = true → PythonText.strip s = s)
    (s : { s : String // p s = true }) : constrained p (ofJson (.str s.val)) = some s := by
  rw [ofJson, constrained, reads.str _ (stripped _ s.property)]
  exact dif_pos s.property

theorem atLeast_dump {low : ℤ} (n : AtLeast low) : atLeast low (ofJson (.int n.val)) = some n := by
  rw [ofJson, atLeast, reads.int]
  exact dif_pos n.property

theorem between_dump {low high : ℤ} (n : Between low high) :
    between low high (ofJson (.int n.val)) = some n := by
  rw [ofJson, between, reads.int]
  exact dif_pos n.property

theorem utc_dump (d : Datetime) : utc (ofJson (.str (isoformat d))) = some d := by
  rw [ofJson, utc, reads.datetime]
  rfl

private theorem validateSubject_dump (subject : RuntimeAuthorizationSubject) :
    validateSubject (ofJson subject.toJson) = some subject := by
  rw [RuntimeAuthorizationSubject.toJson, ofJson_obj, validateSubject, onlyFields_dump (by simp)]
  rw [member_dump rfl, member_dump rfl, member_dump rfl, member_dump rfl, member_dump rfl,
    member_dump rfl, atLeast_dump reads, atLeast_dump reads, constrained_dump reads fun _ => strip_of_isDigest]
  simp only [ofJson, reads.uuid]
  rfl

private theorem validatePolicy_dump (policy : RuntimeAuthorizationPolicyProvenance) :
    validatePolicy (ofJson policy.toJson) = some policy := by
  rw [RuntimeAuthorizationPolicyProvenance.toJson, ofJson_obj, validatePolicy,
    onlyFields_dump (by simp)]
  rw [member_dump rfl, member_dump rfl, member_dump rfl, member_dump rfl, member_dump rfl,
    member_dump rfl]
  simp only [constrained_dump reads fun _ => strip_of_isIdentifier,
    constrained_dump reads fun _ => strip_of_isDigest]
  rfl

private theorem validateModel_dump (model : AuthorizedRuntimeModel) :
    validateModel (ofJson model.toJson) = some model := by
  rw [AuthorizedRuntimeModel.toJson, ofJson_obj, validateModel, onlyFields_dump (by simp)]
  rw [member_dump rfl, member_dump rfl, member_dump rfl, member_dump rfl, member_dump rfl,
    member_dump rfl, atLeast_dump reads, constrained_dump reads fun _ => strip_of_isIdentifier,
    constrained_dump reads fun _ => strip_of_isRoutingGroup,
    constrained_dump reads fun _ => strip_of_isDigest,
    dataClassSet_dump model.someDataClass model.dataClassesAscending]
  simp only [ofJson, reads.uuid]
  rfl

private theorem validateModels_dump {models : List AuthorizedRuntimeModel} (someModel : models ≠ [])
    (ascending : StrictlyAscending (fun model => model.modelId.str) models) :
    ∃ valid, validateModels (ofJson (.arr (models.map AuthorizedRuntimeModel.toJson))) =
      some ⟨models, valid⟩ := by
  have hascending : Ascending (fun model => model.modelId.str) models := ascending
  have hsorted : sortBy (fun model => model.modelId.str) models = models :=
    sortBy_of_ascending hascending
  have hmodels : items validateModel (ofJson (.arr (models.map AuthorizedRuntimeModel.toJson))) =
      some models := items_dump fun model _ => validateModel_dump reads model
  refine ⟨⟨someModel, ascending⟩, ?_⟩
  rw [validateModels, hmodels]
  simp only [Option.bind_eq_bind, Option.bind_some, dif_pos (And.intro someModel hascending.nodup_map),
    hsorted]

private theorem validateRequest_dump (request : RuntimeRequestBinding) :
    validateRequest (ofJson request.toJson) = some request := by
  rw [RuntimeRequestBinding.toJson, ofJson_obj, validateRequest, onlyFields_dump (by simp)]
  rw [member_dump rfl, member_dump rfl, member_dump rfl, member_dump rfl, member_dump rfl,
    member_dump rfl, member_dump rfl, member_dump rfl, between_dump reads, between_dump reads,
    between_dump reads, between_dump reads, constrained_dump reads fun _ => strip_of_isIdentifier,
    constrained_dump reads fun _ => strip_of_isIdentifier,
    constrained_dump reads fun _ => strip_of_isIdentifier]
  simp only [ofJson, reads.bool]
  rfl

theorem textSet_dump {p : String → Bool} {required : Bool}
    (stripped : ∀ s, p s = true → PythonText.strip s = s) {texts : List { s : String // p s = true }}
    (ascending : StrictlyAscending Subtype.val texts) (some_ : required = true → texts ≠ []) :
    textSet p required (ofJson (.arr (texts.map fun text => .str text.val))) =
      some ⟨texts, ascending, some_⟩ :=
  setField_dump (fun text _ => constrained_dump reads stripped text) ascending some_

private theorem validateScope_dump (scope : RuntimeAuthorizationScope) :
    validateScope (ofJson scope.toJson) = some scope := by
  have htier : enumeration [.low, .medium, .high, .critical] AuthorizationRiskTier.value
      (ofJson (.str scope.riskTier.value)) = some scope.riskTier := by
    rw [ofJson]
    exact enumeration_dump (fun _ _ => AuthorizationRiskTier.value_inj)
      (by cases scope.riskTier <;> decide)
  have hclass : dataClassification (ofJson (.str scope.dataClassification.value)) =
      some scope.dataClassification := by
    rw [ofJson]
    exact enumeration_dump dataClassification_value_injective
      (by cases scope.dataClassification <;> decide)
  have hlevel : enumeration [.a0Information, .a1Recommendation, .a2PrepareForApproval,
      .a3ReversibleActions, .a4HighImpactActions, .a5HighAutonomy] AuthorizationAutonomyLevel.value
      (ofJson (.str scope.autonomyLevel.value)) = some scope.autonomyLevel := by
    rw [ofJson]
    exact enumeration_dump (fun _ _ => AuthorizationAutonomyLevel.value_inj)
      (by cases scope.autonomyLevel <;> decide)
  obtain ⟨_, hmodels⟩ := validateModels_dump reads scope.someModel scope.modelsAscending
  rw [RuntimeAuthorizationScope.toJson, ofJson_obj, validateScope, onlyFields_dump (by simp)]
  rw [member_dump rfl, member_dump rfl, member_dump rfl, member_dump rfl, memberOr_dump _ rfl,
    memberOr_dump _ rfl, member_dump rfl, memberOr_dump _ rfl, memberOr_dump _ rfl, htier, hclass,
    hlevel, hmodels,
    textSet_dump reads (fun _ => strip_of_isIdentifier) scope.toolsAscending (by simp),
    textSet_dump reads (fun _ => strip_of_isIdentifier) scope.permissionsAscending (by simp),
    between_dump reads,
    textSet_dump reads (fun _ => strip_of_isStripped) scope.approvalPointsAscending (by simp)]
  simp only [ofJson, literalTrue]
  exact dif_pos ⟨scope.toolsBounded, scope.autonomyApproved, scope.dataClassAllowed⟩

private theorem validateClaims_dump (claims : RuntimeAuthorizationClaims) :
    validateClaims (ofJson claims.toJson) = some claims := by
  rw [RuntimeAuthorizationClaims.toJson, ofJson_obj, validateClaims, onlyFields_dump (by simp)]
  rw [memberOr_dump _ rfl, member_dump rfl, member_dump rfl, member_dump rfl, member_dump rfl,
    member_dump rfl, member_dump rfl, member_dump rfl, member_dump rfl, member_dump rfl,
    member_dump rfl, member_dump rfl, literal_dump,
    constrained_dump reads fun _ => strip_of_isIdentifier,
    textSet_dump reads (fun _ => strip_of_isIdentifier) claims.audienceAscending
      fun _ => claims.someAudience,
    utc_dump reads, utc_dump reads, utc_dump reads, validateSubject_dump reads,
    validateRequest_dump reads, validateScope_dump reads,
    constrained_dump reads fun _ => strip_of_isDigest, validatePolicy_dump reads]
  simp only [ofJson, reads.uuid]
  exact dif_pos ⟨claims.issuedFirst, claims.expiresLast, claims.shortLived⟩

private theorem validateHeader_dump (header : RuntimeAuthorizationProtectedHeader) :
    validateHeader (ofJson header.toJson) = some header := by
  rw [RuntimeAuthorizationProtectedHeader.toJson, ofJson_obj, validateHeader,
    onlyFields_dump (by simp)]
  rw [memberOr_dump _ rfl, memberOr_dump _ rfl, member_dump rfl, ← headerType, literal_dump,
    literal_dump, constrained_dump reads fun _ => strip_of_isIdentifier]
  rfl

theorem validateEnvelope_dump (envelope : SignedRuntimeAuthorization) :
    validateEnvelope (ofJson (envelopeJson envelope)) = some envelope := by
  rw [envelopeJson, ofJson_obj, validateEnvelope, onlyFields_dump (by simp)]
  rw [member_dump rfl, member_dump rfl, member_dump rfl, validateHeader_dump reads,
    validateClaims_dump reads, constrained_dump reads fun _ => strip_of_isSignatureText]
  rfl

end Dumps

/-- Claims that differ in order and repetition only are validated to equal claims, which
sign alike, and the dump of a validated envelope is validated to it. -/
theorem one_canonical_form [FieldReaders] (reads : ReadsDumps) :
    (∀ v w first second, SameClaims v w → validateClaims v = some first →
      validateClaims w = some second → first = second ∧ ∀ header signature signature',
        (SignedRuntimeAuthorization.mk header first signature).signingBytes =
          (SignedRuntimeAuthorization.mk header second signature').signingBytes) ∧
    ∀ v envelope, validateEnvelope v = some envelope →
      ∃ again, validateEnvelope (ofJson (envelopeJson envelope)) = some again ∧
        again = envelope ∧ again.signingBytes = envelope.signingBytes := by
  constructor
  · intro v w first second same hv hw
    obtain rfl : first = second := by
      rw [validateClaims_congr same] at hv
      exact Option.some.inj (hv.symm.trans hw)
    exact ⟨rfl, fun _ _ _ => rfl⟩
  · intro v envelope _
    exact ⟨envelope, validateEnvelope_dump reads envelope, rfl, rfl⟩

namespace Deployed
open VerificationSpecification.Deployed (claims model scope)

open Classical in
noncomputable def ofText {α : Type} (text : α → String) : PyValue → Option α
  | .str s => if h : ∃ a, points (text a) = s then some h.choose else none
  | _ => none

theorem ofText_str {α : Type} {text : α → String} (injective : Function.Injective text) (a : α) :
    ofText text (.str (points (text a))) = some a := by
  have h : ∃ b, points (text b) = points (text a) := ⟨a, rfl⟩
  rw [ofText, dif_pos h, injective (points_inj h.choose_spec)]

/-- Readers of the texts that dumps write. -/
@[reducible] noncomputable def readers : FieldReaders where
  str v := (ofText id v).map PythonText.strip
  int
    | .int n => some n
    | _ => none
  bool
    | .bool b => some b
    | _ => none
  uuid := ofText UUID.str
  datetime v := (ofText isoformat v).map .utc

theorem readers_read : @ReadsDumps readers :=
  @ReadsDumps.mk readers
    (fun s hs => by
      have h : ofText id (.str (points s)) = some s := ofText_str Function.injective_id s
      exact (congrArg (Option.map PythonText.strip) h).trans (congrArg some hs))
    (fun _ => rfl) (fun _ => rfl) (ofText_str fun _ _ => str_inj)
    (fun d => congrArg (Option.map ClockReading.utc) (ofText_str (fun _ _ => isoformat_inj) d))

/-- The claims above for two consumers and two models. -/
def otherModel : AuthorizedRuntimeModel := { model with modelId := ⟨6⟩ }

def widerScope : RuntimeAuthorizationScope :=
  { scope with
    models := [model, otherModel]
    someModel := by simp
    modelsAscending := by
      unfold StrictlyAscending
      decide +kernel
    dataClassAllowed := ⟨model, by simp, by decide⟩ }

def widerClaims : RuntimeAuthorizationClaims :=
  { claims with
    audience := ⟨"audit-log", by decide⟩ :: claims.audience
    scope := widerScope
    someAudience := by simp
    audienceAscending := by
      unfold StrictlyAscending
      decide }

def reversed : PyValue → PyValue
  | .list xs => .list xs.reverse
  | v => v

def repeated : PyValue → PyValue
  | .list xs => .list (xs.reverse ++ xs)
  | v => v

def withMember (name : String) (change : PyValue → PyValue) (fields : Fields) : Fields :=
  match fields.lookup (points name) with
  | some v => withField fields name (change v)
  | none => fields

def shuffledScope : PyValue → PyValue
  | .dict fields => .dict (withMember "models" reversed fields)
  | v => v

/-- The same document with its models the other way round, and its audience too, and then once
more. -/
def shuffled (fields : Fields) : Fields :=
  withMember "scope" shuffledScope (withMember "audience" repeated fields)

theorem sameElements_arr (xs : List Json) : SameElements (ofJson (.arr xs)) (ofJson (.arr xs)) := by
  rw [ofJson]
  exact ⟨_, _, rfl, rfl, fun _ => Iff.rfl⟩

theorem relatedIn_dump {R : PyValue → PyValue → Prop} {fields : List (String × Json)}
    {name : String} {v : Json} (h : fields.lookup name = some v) (refl : R (ofJson v) (ofJson v)) :
    RelatedIn R (dumpFields fields) (dumpFields fields) name := by
  rw [RelatedIn, lookup_dumpFields, h]
  exact .some refl

private theorem sameModel_dump (model : AuthorizedRuntimeModel) :
    SameModel (ofJson model.toJson) (ofJson model.toJson) := by
  rw [AuthorizedRuntimeModel.toJson, ofJson_obj]
  exact ⟨_, _, rfl, rfl, fun _ _ => rfl, relatedIn_dump rfl (sameElements_arr _)⟩

private theorem sameModels_reversed (models : List AuthorizedRuntimeModel) :
    SameModels (ofJson (.arr (models.map AuthorizedRuntimeModel.toJson)))
      (reversed (ofJson (.arr (models.map AuthorizedRuntimeModel.toJson)))) := by
  rw [ofJson, reversed]
  refine ⟨_, _, _, rfl, rfl, (List.reverse_perm _).symm, List.forall₂_same.mpr fun v hv => ?_⟩
  rw [List.mem_reverse, List.map_map] at hv
  obtain ⟨model, -, rfl⟩ := List.mem_map.mp hv
  exact sameModel_dump model

theorem withMember_of_lookup {name : String} {change : PyValue → PyValue} {fields : Fields} {v : PyValue}
    (h : fields.lookup (points name) = some v) :
    withMember name change fields = withField fields name (change v) := by
  rw [withMember, h]

private theorem sameScope_shuffled (scope : RuntimeAuthorizationScope) :
    SameScope (ofJson scope.toJson) (shuffledScope (ofJson scope.toJson)) := by
  rw [RuntimeAuthorizationScope.toJson, ofJson_obj, shuffledScope,
    withMember_of_lookup (lookup_dumpFields _ _)]
  refine ⟨_, _, rfl, rfl, fun key hkey => (lookup_withField_of_ne ?_).symm, ?_, ?_⟩
  · exact fun heq => hkey (heq ▸ List.mem_cons_self)
  · rw [RelatedIn, lookup_withField_self (lookup_dumpFields _ _), lookup_dumpFields]
    exact .some (sameModels_reversed scope.models)
  · have hkept : ∀ name ∈ scopeSets, points name ≠ points "models" := fun name hname heq =>
      absurd (points_inj heq ▸ hname) (by decide)
    intro name hname
    rw [RelatedIn, lookup_withField_of_ne (hkept name hname)]
    simp only [scopeSets, List.mem_cons, List.not_mem_nil, or_false] at hname
    rcases hname with rfl | rfl | rfl
    · exact relatedIn_dump rfl (sameElements_arr _)
    · exact relatedIn_dump rfl (sameElements_arr _)
    · exact relatedIn_dump rfl (sameElements_arr _)

private theorem sameClaims_of_lookup {fields : Fields} {xs : List PyValue} {scope : PyValue}
    (haudience : fields.lookup (points "audience") = some (.list xs))
    (hscope : fields.lookup (points "scope") = some scope) (same : SameScope scope (shuffledScope scope)) :
    SameClaims (.dict fields) (.dict (shuffled fields)) := by
  have hne : points "scope" ≠ points "audience" := fun h => absurd (points_inj h) (by decide)
  have hscope' := (lookup_withField_of_ne (v := repeated (.list xs)) hne).trans hscope
  rw [shuffled, withMember_of_lookup haudience, withMember_of_lookup hscope']
  refine ⟨_, _, rfl, rfl, ?_, ?_, ?_⟩
  · intro key hkey
    have hkept : key ≠ points "scope" ∧ key ≠ points "audience" := by
      constructor
      · rintro rfl
        exact hkey (List.mem_cons_of_mem _ List.mem_cons_self)
      · rintro rfl
        exact hkey List.mem_cons_self
    rw [lookup_withField_of_ne hkept.1, lookup_withField_of_ne hkept.2]
  · rw [RelatedIn, lookup_withField_of_ne hne.symm, lookup_withField_self haudience, haudience]
    exact .some ⟨_, _, rfl, rfl, fun x => by simp⟩
  · rw [RelatedIn, lookup_withField_self hscope', hscope]
    exact .some same

private theorem sameClaims_shuffled (claims : RuntimeAuthorizationClaims) : ∃ fields,
    ofJson claims.toJson = .dict fields ∧ SameClaims (.dict fields) (.dict (shuffled fields)) := by
  have haudience : ofJson (.arr (claims.audience.map fun consumer => .str consumer.val)) =
      .list ((claims.audience.map fun consumer => .str consumer.val).map ofJson) := by rw [ofJson]
  refine ⟨_, ofJson_obj _, sameClaims_of_lookup ((lookup_dumpFields _ _).trans (congrArg some haudience))
    (lookup_dumpFields _ _) (sameScope_shuffled claims.scope)⟩

end Deployed

open VerificationSpecification.Deployed (envelope) in
/-- The claims above are read back from a document with the models the other way round and the
audience repeated, and so is an envelope from its dump. -/
theorem one_canonical_form_shuffled : ∃ fields second,
    ofJson Deployed.widerClaims.toJson = .dict fields ∧
    @validateClaims Deployed.readers (.dict (Deployed.shuffled fields)) = some second ∧
    Deployed.widerClaims = second ∧ ∃ again,
      @validateEnvelope Deployed.readers (ofJson (envelopeJson envelope)) = some again ∧
        again = envelope := by
  obtain ⟨fields, hfields, same⟩ := Deployed.sameClaims_shuffled Deployed.widerClaims
  have hclaims : @validateClaims Deployed.readers (.dict fields) = some Deployed.widerClaims := by
    rw [← hfields]
    exact @validateClaims_dump Deployed.readers Deployed.readers_read Deployed.widerClaims
  have hsecond := (@validateClaims_congr Deployed.readers _ _ same).symm.trans hclaims
  obtain ⟨hcanonical, hdump⟩ := @one_canonical_form Deployed.readers Deployed.readers_read
  obtain ⟨again, hagain, hsame, -⟩ := hdump _ _
    (@validateEnvelope_dump Deployed.readers Deployed.readers_read envelope)
  exact ⟨fields, _, hfields, hsecond, (hcanonical _ _ _ _ same hclaims hsecond).1, again, hagain,
    hsame⟩

end PolicyModelRouter.CanonicalClaims
