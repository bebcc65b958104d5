import Candlestick.Config.Text
import Candlestick.Proofs.Json.Record
import Candlestick.Proofs.Json.Text

/-!
# Reading settings

An object may give any of the fields of settings, in any order. It is read as the settings that
have these fields and the defaults for the others, if there is room for a contract and for a tick;
an object that repeats a member or has one that is not a field is refused, whatever else it has
(`Config.ofText_members`). Settings that can be used are read back from their text.
-/

namespace Candlestick

open Json (fieldOr IsMisnamed)

/-- The members of an object. -/
abbrev Members := List (Option String × Json)

lemma Json.Names.isPlain {v : Json} {name : String} (h : v.Names name) : v.IsPlain := by
  rcases h with rfl | rfl
  · rfl
  · exact ⟨rfl, trivial, trivial⟩

/-- What comes of reading settings: they are given if there is room for a contract and for a tick,
and refused for want of the one or else of the other. -/
def TableConfig.Decides {α : Type} (sizes : TableConfig) (config : α)
    (r : Except ConfigReadError α) : Prop :=
  (sizes.capacity ≠ 0 → sizes.bucketSize ≠ 0 → r = .ok config) ∧
    (sizes.capacity = 0 → r = .error (.invalid .zeroCapacity)) ∧
    (sizes.capacity ≠ 0 → sizes.bucketSize = 0 → r = .error (.invalid .zeroBucketSize))

section readConfig

variable {α : Type} {ofJson? : Json → Option α} {validate : α → Except ConfigError Unit}
variable {config : α} {text : String} {v : Json}

/-- Settings that are read are validated by the sizes of their table. -/
lemma TableConfig.decides_readConfig {sizes : TableConfig} (htext : Json.ofText? text = some v)
    (hjson : ofJson? v = some config) (hvalidate : validate config = sizes.validate) :
    sizes.Decides config (readConfig ofJson? validate text) := by
  simp only [Decides, readConfig, htext, Option.bind_some, hjson, hvalidate, TableConfig.validate]
  split_ifs <;> simp_all

lemma readConfig_eq_ok (htext : Json.ofText? text = some v) (hjson : ofJson? v = some config)
    (hvalid : validate config = .ok ()) : readConfig ofJson? validate text = .ok config := by
  rw [readConfig, htext, Option.bind_some, hjson]
  dsimp only
  rw [hvalid]

lemma readConfig_malformed (htext : Json.ofText? text = some v) (hjson : ofJson? v = none) :
    readConfig ofJson? validate text = .error .malformed := by
  rw [readConfig, htext, Option.bind_some, hjson]

end readConfig

namespace TableConfig

variable {c : TableConfig} {members : Members}

/-- An object gives fields of a table's settings, and nothing else. -/
structure IsGivenBy (c : TableConfig) (members : Members) : Prop where
  named : ¬ IsMisnamed fieldNames members
  capacity : ∀ v, (some "capacity", v) ∈ members → v = .natural c.capacity.toNat
  bucketSize : ∀ v, (some "bucket_size", v) ∈ members → v = .natural c.bucketSize.toNat
  layout : ∀ v, (some "layout_mode", v) ∈ members → v.Names c.layout.name
  seed : ∀ v, (some "hash_seed", v) ∈ members → v = .natural c.seed.toNat

/-- The settings that have the fields an object gives, and the defaults for the others. -/
def restrict (c : TableConfig) (members : Members) : TableConfig where
  capacity := fieldOr members "capacity" c.capacity (default : TableConfig).capacity
  bucketSize := fieldOr members "bucket_size" c.bucketSize (default : TableConfig).bucketSize
  layout := fieldOr members "layout_mode" c.layout (default : TableConfig).layout
  seed := fieldOr members "hash_seed" c.seed (default : TableConfig).seed

/-- An object that gives fields is read as the settings that have them. -/
lemma IsGivenBy.ofJson?_eq (h : c.IsGivenBy members) :
    ofJson? (.object members) = some (c.restrict members) := by
  have hnodup := Json.nodup_of_not_isMisnamed h.named
  obtain ⟨capacity, hcapacity, hread₀⟩ := Json.exists_member? Json.longWord?
    (default : TableConfig).capacity hnodup fun v hv => h.capacity v hv ▸ Json.longWord?_natural _
  obtain ⟨bucketSize, hbucketSize, hread₁⟩ := Json.exists_member? Json.longWord?
    (default : TableConfig).bucketSize hnodup
    fun v hv => h.bucketSize v hv ▸ Json.longWord?_natural _
  obtain ⟨layout, hlayout, hread₂⟩ := Json.exists_member? Layout.ofJson?
    (default : TableConfig).layout hnodup
    fun v hv => (Json.choice?_of_names (h.layout v hv)).trans (Layout.ofName?_name _)
  obtain ⟨seed, hseed, hread₃⟩ := Json.exists_member? Json.word?
    (default : TableConfig).seed hnodup fun v hv => h.seed v hv ▸ Json.word?_natural _
  have hfields : Json.settingFields? fieldNames (.object members) =
      some [capacity, bucketSize, layout, seed] := by
    rw [Json.settingFields?_of_not_isMisnamed h.named]
    simp [fieldNames, hcapacity, hbucketSize, hlayout, hseed]
  simp only [ofJson?, hfields, Option.bind_eq_bind, Option.bind_some, hread₀, hread₁, hread₂,
    hread₃, Option.pure_def]
  rfl

lemma ofJson?_of_isMisnamed (h : IsMisnamed fieldNames members) :
    ofJson? (.object members) = none := by
  rw [ofJson?, Json.settingFields?_of_isMisnamed h]
  rfl

lemma IsGivenBy.isPlain (h : c.IsGivenBy members) : (Json.object members).IsPlain := by
  refine Json.membersPlain_iff.mpr fun entry hentry => ?_
  obtain ⟨name, hname, heq⟩ := Json.exists_name_of_not_isMisnamed h.named hentry
  obtain ⟨name?, value⟩ := entry
  cases heq
  refine ⟨rfl, ?_⟩
  simp only [fieldNames, List.mem_cons, List.not_mem_nil, or_false] at hname
  rcases hname with rfl | rfl | rfl | rfl
  · exact h.capacity _ hentry ▸ trivial
  · exact h.bucketSize _ hentry ▸ trivial
  · exact (h.layout _ hentry).isPlain
  · exact h.seed _ hentry ▸ trivial

/-- The value of a table's settings gives all of them. -/
lemma isGivenBy_toJson (c : TableConfig) :
    ∃ members, c.toJson = .object members ∧ c.IsGivenBy members ∧ c.restrict members = c := by
  refine ⟨_, rfl, ⟨Json.not_isMisnamed (by decide) rfl, ?_, ?_, ?_, ?_⟩, rfl⟩
  · intro v hv
    simpa [fieldNames] using hv
  · intro v hv
    simpa [fieldNames] using hv
  · intro v hv
    exact .inl (by simpa [fieldNames, Layout.toJson] using hv)
  · intro v hv
    simpa [fieldNames] using hv

end TableConfig

namespace RollupConfig

variable {c : RollupConfig} {members inner : Members}

/-- An object gives fields of a rollup's settings, and nothing else; `inner` are the members of the
table's settings, if these are given. -/
structure IsGivenBy (c : RollupConfig) (members inner : Members) : Prop where
  named : ¬ IsMisnamed fieldNames members
  table : ∀ v, (some "collection", v) ∈ members → v = .object inner ∧ c.table.IsGivenBy inner
  timeframe : ∀ v, (some "timeframe", v) ∈ members → v.Names c.timeframe.name
  overflow : ∀ v, (some "overflow", v) ∈ members → v.Names c.overflow.name

/-- The settings that have the fields an object gives, and the defaults for the others. -/
def restrict (c : RollupConfig) (members inner : Members) : RollupConfig where
  table := fieldOr members "collection" (c.table.restrict inner) (default : RollupConfig).table
  timeframe := fieldOr members "timeframe" c.timeframe (default : RollupConfig).timeframe
  overflow := fieldOr members "overflow" c.overflow (default : RollupConfig).overflow

/-- An object that gives fields is read as the settings that have them. -/
lemma IsGivenBy.ofJson?_eq (h : c.IsGivenBy members inner) :
    ofJson? (.object members) = some (c.restrict members inner) := by
  have hnodup := Json.nodup_of_not_isMisnamed h.named
  obtain ⟨table, htable, hread₀⟩ := Json.exists_member? TableConfig.ofJson?
    (default : RollupConfig).table hnodup fun v hv => by
      obtain ⟨rfl, hinner⟩ := h.table v hv
      exact hinner.ofJson?_eq
  obtain ⟨timeframe, htimeframe, hread₁⟩ := Json.exists_member? Timeframe.ofJson?
    (default : RollupConfig).timeframe hnodup
    fun v hv => (Json.choice?_of_names (h.timeframe v hv)).trans (Timeframe.ofName?_name _)
  obtain ⟨overflow, hoverflow, hread₂⟩ := Json.exists_member? OverflowPolicy.ofJson?
    (default : RollupConfig).overflow hnodup
    fun v hv => (Json.choice?_of_names (h.overflow v hv)).trans (OverflowPolicy.ofName?_name _)
  have hfields : Json.settingFields? fieldNames (.object members) =
      some [table, timeframe, overflow] := by
    rw [Json.settingFields?_of_not_isMisnamed h.named]
    simp [fieldNames, htable, htimeframe, hoverflow]
  simp only [ofJson?, hfields, Option.bind_eq_bind, Option.bind_some, hread₀, hread₁, hread₂,
    Option.pure_def]
  rfl

lemma ofJson?_of_isMisnamed (h : IsMisnamed fieldNames members) :
    ofJson? (.object members) = none := by
  rw [ofJson?, Json.settingFields?_of_isMisnamed h]
  rfl

/-- Settings are refused if those of the table are. -/
lemma ofJson?_of_inner_isMisnamed (hmem : (some "collection", Json.object inner) ∈ members)
    (h : IsMisnamed TableConfig.fieldNames inner) : ofJson? (.object members) = none := by
  by_cases hnamed : IsMisnamed fieldNames members
  · exact ofJson?_of_isMisnamed hnamed
  have htable := Json.member?_of_mem (Json.nodup_of_not_isMisnamed hnamed) hmem
  rw [ofJson?, Json.settingFields?_of_not_isMisnamed hnamed]
  simp only [fieldNames, List.mapM_cons, List.mapM_nil, htable]
  cases Json.member? members "timeframe" with
  | none => rfl
  | some timeframe =>
    cases Json.member? members "overflow" with
    | none => rfl
    | some overflow =>
      have hinner := TableConfig.ofJson?_of_isMisnamed h
      simp [Json.orDefault?, hinner]

lemma IsGivenBy.isPlain (h : c.IsGivenBy members inner) : (Json.object members).IsPlain := by
  refine Json.membersPlain_iff.mpr fun entry hentry => ?_
  obtain ⟨name, hname, heq⟩ := Json.exists_name_of_not_isMisnamed h.named hentry
  obtain ⟨name?, value⟩ := entry
  cases heq
  refine ⟨rfl, ?_⟩
  simp only [fieldNames, List.mem_cons, List.not_mem_nil, or_false] at hname
  rcases hname with rfl | rfl | rfl
  · obtain ⟨rfl, hinner⟩ := h.table _ hentry
    exact hinner.isPlain
  · exact (h.timeframe _ hentry).isPlain
  · exact (h.overflow _ hentry).isPlain

/-- The value of a rollup's settings gives all of them, those of the table included. -/
lemma isGivenBy_toJson (c : RollupConfig) :
    ∃ members inner, c.toJson = .object members ∧ c.IsGivenBy members inner ∧
      c.restrict members inner = c := by
  obtain ⟨inner, htable, hinner, hrestrict⟩ := c.table.isGivenBy_toJson
  refine ⟨_, inner, rfl, ⟨Json.not_isMisnamed (by decide) rfl, ?_, ?_, ?_⟩, ?_⟩
  · intro v hv
    have hv : v = c.table.toJson := by simpa [fieldNames] using hv
    exact ⟨hv.trans htable, hinner⟩
  · intro v hv
    exact .inl (by simpa [fieldNames, Timeframe.toJson] using hv)
  · intro v hv
    exact .inl (by simpa [fieldNames, OverflowPolicy.toJson] using hv)
  · change (⟨c.table.restrict inner, c.timeframe, c.overflow⟩ : RollupConfig) = c
    rw [hrestrict]

end RollupConfig

namespace Config

/--
An object that gives fields of settings, in any order, is read as the settings with these fields and
the defaults for the others, if these have room for a contract and for a tick. An object that
repeats a member or has one that is not a field is refused. Settings that can be used are read back
from their text.
-/
theorem ofText_members :
    (∀ (c : TableConfig) (members : Members), c.IsGivenBy members →
      Json.ofText? (Json.object members).text = some (.object members) ∧
        ∀ text, Json.ofText? text = some (.object members) →
          (c.restrict members).Decides (c.restrict members) (TableConfig.ofText text)) ∧
    (∀ (c : RollupConfig) (members inner : Members), c.IsGivenBy members inner →
      Json.ofText? (Json.object members).text = some (.object members) ∧
        ∀ text, Json.ofText? text = some (.object members) →
          (c.restrict members inner).table.Decides (c.restrict members inner)
            (RollupConfig.ofText text)) ∧
    (∀ (members inner : Members) (text : String), Json.ofText? text = some (.object members) →
      (IsMisnamed TableConfig.fieldNames members →
        TableConfig.ofText text = .error .malformed) ∧
      (IsMisnamed RollupConfig.fieldNames members →
        RollupConfig.ofText text = .error .malformed) ∧
      ((some "collection", .object inner) ∈ members → IsMisnamed TableConfig.fieldNames inner →
        RollupConfig.ofText text = .error .malformed)) ∧
    (∀ c : TableConfig, c.validate = .ok () → TableConfig.ofText c.toJson.text = .ok c) ∧
    ∀ c : RollupConfig, c.validate = .ok () → RollupConfig.ofText c.toJson.text = .ok c := by
  refine ⟨?_, ?_, ?_, ?_, ?_⟩
  · intro c members h
    refine ⟨Json.ofText?_text h.isPlain, fun text htext => ?_⟩
    exact TableConfig.decides_readConfig htext h.ofJson?_eq rfl
  · intro c members inner h
    refine ⟨Json.ofText?_text h.isPlain, fun text htext => ?_⟩
    exact TableConfig.decides_readConfig htext h.ofJson?_eq rfl
  · intro members inner text htext
    refine ⟨fun h => ?_, fun h => ?_, fun hmem h => ?_⟩
    · exact readConfig_malformed htext (TableConfig.ofJson?_of_isMisnamed h)
    · exact readConfig_malformed htext (RollupConfig.ofJson?_of_isMisnamed h)
    · exact readConfig_malformed htext (RollupConfig.ofJson?_of_inner_isMisnamed hmem h)
  · intro c hvalid
    obtain ⟨members, hjson, hgiven, hrestrict⟩ := c.isGivenBy_toJson
    rw [hjson]
    exact readConfig_eq_ok (Json.ofText?_text hgiven.isPlain) (hrestrict ▸ hgiven.ofJson?_eq) hvalid
  · intro c hvalid
    obtain ⟨members, inner, hjson, hgiven, hrestrict⟩ := c.isGivenBy_toJson
    rw [hjson]
    exact readConfig_eq_ok (Json.ofText?_text hgiven.isPlain) (hrestrict ▸ hgiven.ofJson?_eq) hvalid

/-- The members of a table's settings without its capacity and layout. -/
def sparseTable : Members :=
  [(some "hash_seed", .natural 7), (some "bucket_size", .natural 3)]

/-- The members of settings without the timeframe. -/
def sparse : Members :=
  [(some "overflow", .string "drop_tick"), (some "collection", .object sparseTable)]

/-- Three fields are given and four have their defaults. -/
theorem ofText_members_sparse :
    RollupConfig.ofText (Json.object sparse).text =
      .ok ⟨⟨1024, 3, .perCategory, 7⟩, .minute1, .dropTick⟩ ∧
    RollupConfig.ofText (Json.object [(some "seed", .natural 7)]).text = .error .malformed := by
  have hinner : (⟨1, 3, .flat, 7⟩ : TableConfig).IsGivenBy sparseTable := by
    refine ⟨?_, ?_, ?_, ?_, ?_⟩ <;> simp [sparseTable, IsMisnamed, TableConfig.fieldNames]
  have hgiven :
      (⟨⟨1, 3, .flat, 7⟩, .hour1, .dropTick⟩ : RollupConfig).IsGivenBy sparse sparseTable := by
    refine ⟨?_, ?_, ?_, ?_⟩
    · simp [sparse, IsMisnamed, RollupConfig.fieldNames]
    · simpa [sparse] using hinner
    · simp [sparse]
    · simp [sparse, Json.Names, OverflowPolicy.name]
  obtain ⟨htext, hread⟩ := ofText_members.2.1 _ _ _ hgiven
  have hplain : (Json.object [(some "seed", .natural 7)]).IsPlain := ⟨rfl, trivial, trivial⟩
  refine ⟨(hread _ htext).1 (by decide) (by decide), ?_⟩
  refine (ofText_members.2.2.1 _ [] _ (Json.ofText?_text hplain)).2.1 ?_
  simp [IsMisnamed, RollupConfig.fieldNames]

end Config

end Candlestick
