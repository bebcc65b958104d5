import Candlestick.Codec.Candle
import Candlestick.Proofs.Decimal.Text
import Candlestick.Proofs.Json.Record
import Candlestick.Proofs.Json.Text
import Candlestick.Proofs.Timestamp.Text

/-!
# Reading data back

Ticks and candles are read back from their JSON text as they are: with the places of their decimals
and the nanoseconds of their moments (`Codec.ofText_text`). A zero with a minus sign loses it, and a
moment in a leap second within a minute is read back as one in the second after it, whose text it
shares.
-/

namespace Candlestick

namespace Json

variable {names : List String} {values : List Json} {v : Json}

lemma IsPlain.record (hvalues : ∀ v ∈ values, v.IsPlain) : (record names values).IsPlain := by
  refine membersPlain_iff.mpr fun entry hentry => ?_
  obtain ⟨hname, hvalue⟩ := List.of_mem_zip hentry
  obtain ⟨name, -, heq⟩ := List.mem_map.mp hname
  rw [← heq]
  exact ⟨rfl, hvalues _ hvalue⟩

lemma mapM_member? {members : List (Option String × Json)}
    (hnodup : (members.map Prod.fst).Nodup) (hlength : names.length = values.length)
    (hmem : ∀ entry ∈ (names.map some).zip values, entry ∈ members) :
    names.mapM (member? members) = some (values.map some) := by
  induction names generalizing values with
  | nil =>
    rw [List.eq_nil_of_length_eq_zero hlength.symm]
    rfl
  | cons name names ih =>
    cases values with
    | nil => cases hlength
    | cons value values =>
      rw [List.map_cons, List.zip_cons_cons, List.forall_mem_cons] at hmem
      rw [List.mapM_cons, member?_of_mem hnodup hmem.1, ih (Nat.succ.inj hlength) hmem.2]
      rfl

/-- The fields of a record of data are read back. -/
lemma dataFields?_record (hnames : names.Nodup) (hlength : names.length = values.length) :
    dataFields? names (record names values) = some (values.map some) := by
  have hfst : ((names.map some).zip values).map Prod.fst = names.map some :=
    List.map_fst_zip (by rw [List.length_map, hlength])
  have hall : ((names.map some).zip values).all (·.1.isSome) := by
    rw [List.all_eq_true]
    intro entry hentry
    obtain ⟨name, -, heq⟩ := List.mem_map.mp (List.of_mem_zip hentry).1
    rw [← heq]
    rfl
  rw [record, dataFields?, if_pos hall]
  refine mapM_member? ?_ hlength fun entry hentry => hentry
  rw [hfst]
  exact hnames.map fun _ _ => Option.some.inj

/-- A plain value is decoded from its text. -/
lemma decode_text {α : Type} {ofJson? : Json → Option α} {a : α} (hplain : v.IsPlain)
    (h : ofJson? v = some a) : (ofText? v.text).bind ofJson? = some a := by
  rw [ofText?_text hplain, Option.bind_some, h]

end Json

lemma Decimal.ofJson?_toJson {x : Decimal} (h : ¬ x.IsNegativeZero) :
    Decimal.ofJson? x.toJson = some x := by
  rw [ofJson?, toJson, Json.text?, Option.bind_some, ofText?_text h]

lemma Timestamp.ofJson?_toJson (t : Timestamp) :
    Timestamp.ofJson? t.toJson = some t.asWritten := by
  rw [ofJson?, toJson, Json.text?, Option.bind_some, ofText?_text]

lemma Category.ofJson?_toJson (c : Category) : Category.ofJson? c.toJson = some c :=
  ofName?_name c

namespace TickRecord

/-- No zero has a minus sign. -/
def HasNoNegativeZero (r : TickRecord) : Prop :=
  ¬ r.price.IsNegativeZero ∧ ¬ r.quantity.IsNegativeZero

lemma isPlain_toJson (r : TickRecord) : r.toJson.IsPlain := by
  refine .record fun v hv => ?_
  simp only [List.mem_cons, List.not_mem_nil, or_false] at hv
  rcases hv with rfl | rfl | rfl | rfl <;> rfl

lemma ofJson?_toJson {r : TickRecord} (h : r.HasNoNegativeZero) :
    ofJson? r.toJson = some { r with timestamp := r.timestamp.asWritten } := by
  rw [ofJson?, toJson, Json.dataFields?_record (by decide) rfl]
  simp [Timestamp.ofJson?_toJson, Category.ofJson?_toJson, Decimal.ofJson?_toJson h.1,
    Decimal.ofJson?_toJson h.2]

end TickRecord

namespace Candle

/-- No zero has a minus sign. -/
def HasNoNegativeZero (c : Candle) : Prop :=
  ¬ c.opening.IsNegativeZero ∧ ¬ c.high.IsNegativeZero ∧ ¬ c.low.IsNegativeZero ∧
    ¬ c.closing.IsNegativeZero ∧ ¬ c.volume.IsNegativeZero

lemma isPlain_toJson (c : Candle) : c.toJson.IsPlain := by
  refine .record fun v hv => ?_
  simp only [List.mem_cons, List.not_mem_nil, or_false] at hv
  rcases hv with rfl | rfl | rfl | rfl | rfl | rfl
  all_goals trivial

lemma ofJson?_toJson {c : Candle} (h : c.HasNoNegativeZero) : ofJson? c.toJson = some c := by
  obtain ⟨hopening, hhigh, hlow, hclosing, hvolume⟩ := h
  rw [ofJson?, toJson, Json.dataFields?_record (by decide) rfl]
  simp [Decimal.ofJson?_toJson hopening, Decimal.ofJson?_toJson hhigh, Decimal.ofJson?_toJson hlow,
    Decimal.ofJson?_toJson hclosing, Decimal.ofJson?_toJson hvolume, Json.longWord?_natural]

end Candle

namespace ContractCandle

/-- No zero has a minus sign. -/
def HasNoNegativeZero (c : ContractCandle) : Prop :=
  c.candles.bid.HasNoNegativeZero ∧ c.candles.ask.HasNoNegativeZero ∧
    c.candles.trade.HasNoNegativeZero

lemma isPlain_momentToJson (t : Option Timestamp) : (momentToJson t).IsPlain := by
  cases t with
  | none => trivial
  | some t => rfl

lemma isPlain_toJson (c : ContractCandle) : c.toJson.IsPlain := by
  refine .record fun v hv => ?_
  simp only [List.mem_cons, List.not_mem_nil, or_false] at hv
  rcases hv with rfl | rfl | rfl | rfl | rfl
  · exact c.candles.bid.isPlain_toJson
  · exact c.candles.ask.isPlain_toJson
  · exact c.candles.trade.isPlain_toJson
  · exact isPlain_momentToJson c.firstAt
  · exact isPlain_momentToJson c.lastAt

lemma optional?_momentToJson (t : Option Timestamp) :
    Json.optional? Timestamp.ofJson? (some (momentToJson t)) =
      some (t.map Timestamp.asWritten) := by
  cases t with
  | none => rfl
  | some t =>
    change (Timestamp.ofJson? t.toJson).map some = _
    rw [t.ofJson?_toJson, Option.map_some, Option.map_some]

lemma ofJson?_toJson {c : ContractCandle} (h : c.HasNoNegativeZero) :
    ofJson? c.toJson = some
      { c with
        firstAt := c.firstAt.map Timestamp.asWritten
        lastAt := c.lastAt.map Timestamp.asWritten } := by
  obtain ⟨hbid, hask, htrade⟩ := h
  rw [ofJson?, toJson, Json.dataFields?_record (by decide) rfl]
  simp [Candle.ofJson?_toJson hbid, Candle.ofJson?_toJson hask, Candle.ofJson?_toJson htrade,
    optional?_momentToJson]

end ContractCandle

namespace Codec

/--
A tick, a candle and the candles of a contract are read back from their text, with the places of
their decimals and the nanoseconds of their moments, if no zero has a minus sign. Only a moment in
a leap second that is not the last second of its minute is read back as another: the one in the
second after it, which is written alike.
-/
theorem ofText_text :
    (∀ r : TickRecord, r.HasNoNegativeZero →
      (Json.ofText? r.toJson.text).bind TickRecord.ofJson? =
        some { r with timestamp := r.timestamp.asWritten }) ∧
    (∀ c : Candle, c.HasNoNegativeZero →
      (Json.ofText? c.toJson.text).bind Candle.ofJson? = some c) ∧
    (∀ c : ContractCandle, c.HasNoNegativeZero →
      (Json.ofText? c.toJson.text).bind ContractCandle.ofJson? = some
        { c with
          firstAt := c.firstAt.map Timestamp.asWritten
          lastAt := c.lastAt.map Timestamp.asWritten }) ∧
    (∀ t : Timestamp, (10 ^ 9 ≤ t.nanos → t.seconds % 60 = 59) → t.asWritten = t) ∧
    ∀ t : Timestamp, 10 ^ 9 ≤ t.nanos → t.seconds % 60 ≠ 59 →
      t.asWritten.seconds = t.seconds + 1 ∧ t.asWritten.nanos + 10 ^ 9 = t.nanos := by
  refine ⟨fun r h => Json.decode_text r.isPlain_toJson (TickRecord.ofJson?_toJson h),
    fun c h => Json.decode_text c.isPlain_toJson (Candle.ofJson?_toJson h),
    fun c h => Json.decode_text c.isPlain_toJson (ContractCandle.ofJson?_toJson h), ?_, ?_⟩
  · intro t hend
    exact Timestamp.asWritten_of_not_isInnerLeap fun h => h.2 (hend (of_decide_eq_true h.1))
  · intro t hleap hinner
    have h : t.IsInnerLeap := ⟨decide_eq_true hleap, hinner⟩
    refine ⟨Timestamp.seconds_asWritten h, ?_⟩
    rw [Timestamp.nanos_asWritten h, Nat.sub_add_cancel hleap]

/-- A trade in the leap second at the end of the year before year 0. -/
def yearEndTick : TickRecord where
  timestamp := ⟨-62167219201, 1250000000, by decide, by decide, by decide⟩
  category := .trade
  price := ⟨true, 150, 2, by decide, by decide⟩
  quantity := ⟨false, 7000, 3, by decide, by decide⟩

/-- The candles of a contract that have no last moment. -/
def openEnded : ContractCandle where
  candles := .fill .empty
  firstAt := some yearEndTick.timestamp
  lastAt := none

/-- The same trade in a leap second between seconds 4 and 5 of 1970. -/
def innerTick : TickRecord :=
  { yearEndTick with timestamp := ⟨4, 1333333333, by decide, by decide, by decide⟩ }

lemma hasNoNegativeZero_yearEndTick : yearEndTick.HasNoNegativeZero :=
  ⟨fun h => absurd h.2 (by decide), fun h => absurd h.1 (by decide)⟩

lemma hasNoNegativeZero_empty : Candle.empty.HasNoNegativeZero := by
  have hzero : ¬ Decimal.zero.IsNegativeZero := fun h => absurd h.1 Bool.false_ne_true
  exact ⟨hzero, hzero, hzero, hzero, hzero⟩

/-- A sign, places and a quarter of a leap second are kept, and so is a moment that is missing. A
leap second after second 4 is read back as second 5. -/
theorem ofText_text_yearEnd :
    (Json.ofText? yearEndTick.toJson.text).bind TickRecord.ofJson? = some yearEndTick ∧
      (Json.ofText? Candle.empty.toJson.text).bind Candle.ofJson? = some .empty ∧
      (Json.ofText? openEnded.toJson.text).bind ContractCandle.ofJson? = some openEnded ∧
      ∃ r, (Json.ofText? innerTick.toJson.text).bind TickRecord.ofJson? = some r ∧
        r.timestamp.seconds = 5 ∧ r.timestamp.nanos = 333333333 := by
  obtain ⟨hticks, hcandles, hcontracts, hkept, hmoved⟩ := ofText_text
  have hempty := hasNoNegativeZero_empty
  have hend : yearEndTick.timestamp.asWritten = yearEndTick.timestamp := hkept _ fun _ => by decide
  obtain ⟨hseconds, hnanos⟩ := hmoved innerTick.timestamp (by decide) (by decide)
  have htick := hticks yearEndTick hasNoNegativeZero_yearEndTick
  have hopen := hcontracts openEnded ⟨hempty, hempty, hempty⟩
  rw [hend] at htick
  rw [openEnded, Option.map_some, hend] at hopen
  exact ⟨htick, hcandles _ hempty, hopen, _, hticks innerTick hasNoNegativeZero_yearEndTick,
    hseconds, Nat.add_right_cancel hnanos⟩

/-- Not every tick is read back as it is, and neither are the candles of every tick. -/
theorem innerTick_not_read_back :
    innerTick.HasNoNegativeZero ∧
      (Json.ofText? innerTick.toJson.text).bind TickRecord.ofJson? ≠ some innerTick ∧
      ∃ c, ContractCandle.ofRecords [innerTick] = .ok c ∧ c.HasNoNegativeZero ∧
        (Json.ofText? c.toJson.text).bind ContractCandle.ofJson? ≠ some c := by
  have htick : innerTick.HasNoNegativeZero := hasNoNegativeZero_yearEndTick
  have hmoved : innerTick.timestamp.asWritten ≠ innerTick.timestamp := by decide
  obtain ⟨c, hc, hfirst, hcandles⟩ : ∃ c, ContractCandle.ofRecords [innerTick] = .ok c ∧
      c.firstAt = some innerTick.timestamp ∧ c.HasNoNegativeZero :=
    ⟨_, rfl, rfl, hasNoNegativeZero_empty, hasNoNegativeZero_empty, htick.1, htick.1, htick.1,
      htick.1, htick.2⟩
  refine ⟨htick, ?_, c, hc, hcandles, ?_⟩
  · rw [Json.decode_text innerTick.isPlain_toJson (TickRecord.ofJson?_toJson htick)]
    intro h
    exact hmoved (congrArg TickRecord.timestamp (Option.some.inj h))
  · rw [Json.decode_text c.isPlain_toJson (ContractCandle.ofJson?_toJson hcandles), hfirst]
    intro h
    have hsame := congrArg ContractCandle.firstAt (Option.some.inj h)
    exact hmoved (Option.some.inj (hsame.trans hfirst))

end Codec

end Candlestick
