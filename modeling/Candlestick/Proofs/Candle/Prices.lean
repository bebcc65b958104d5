import Candlestick.Candle
import Candlestick.Proofs.Decimal.Number
import Mathlib.Data.List.Induction

/-!
# What a candle shows of its prices

A candle is folded from prices, some of them with a quantity that was traded. It shows the first
and the last price, the earliest of the highest and the earliest of the lowest ones, whatever their
signs are (`Candle.Shows.of_foldl`), and its volume is the sum of the quantities as long as decimals
stand for the running sums (`Candle.ofTicks_exact`).
-/

namespace Candlestick

open Decimal (Overflow)

/-! ### The earliest extreme -/

section Earliest

variable {α : Type} {r : α → α → Prop} [DecidableRel r] {as : List α} {a : α}

/-- The earliest of some values to which all of them are related. -/
def earliest? (r : α → α → Prop) [DecidableRel r] (as : List α) : Option α :=
  as.find? fun a => ∀ b ∈ as, r b a

lemma earliest?_eq_some_iff :
    earliest? r as = some a ↔
      (∀ b ∈ as, r b a) ∧
        ∃ before after, as = before ++ a :: after ∧ ∀ b ∈ before, ¬∀ b' ∈ as, r b' b := by
  rw [earliest?, List.find?_eq_some_iff_append]
  simp only [decide_eq_true_eq, Bool.not_eq_true', decide_eq_false_iff_not]

lemma earliest?_singleton [Std.Refl r] (a : α) : earliest? r [a] = some a := by
  rw [earliest?_eq_some_iff]
  refine ⟨?_, [], [], rfl, by simp⟩
  intro b hb
  rw [List.mem_singleton.mp hb]
  exact Std.Refl.refl a

/-- A later value takes the place of an earlier one only if it is not related to it. -/
lemma earliest?_append_singleton [IsTrans α r] [Std.Total r] (h : earliest? r as = some a) (b : α) :
    earliest? r (as ++ [b]) = some (if r b a then a else b) := by
  rw [earliest?_eq_some_iff] at h ⊢
  obtain ⟨hall, before, after, has, hbefore⟩ := h
  split_ifs with hba
  · refine ⟨?_, before, after ++ [b], by rw [has, List.append_assoc, List.cons_append], ?_⟩
    · intro c hc
      rcases List.mem_append.mp hc with hc | hc
      · exact hall c hc
      · rwa [List.mem_singleton.mp hc]
    · intro c hc hevery
      exact hbefore c hc fun d hd => hevery d (List.mem_append_left _ hd)
  · have hab : r a b := (Std.Total.total b a).resolve_left hba
    refine ⟨?_, as, [], rfl, ?_⟩
    · intro c hc
      rcases List.mem_append.mp hc with hc | hc
      · exact IsTrans.trans c a b (hall c hc) hab
      · rw [List.mem_singleton.mp hc]
        exact (Std.Total.total b b).elim id id
    · intro c hc hevery
      have hbc : r b c := hevery b (List.mem_append_right _ List.mem_cons_self)
      exact hba (IsTrans.trans b c a hbc (hall c hc))

end Earliest

namespace Candle

/-- A price, and the quantity if something was traded at it. -/
structure Tick where
  price : Decimal
  quantity? : Option Decimal

variable {c : Candle} {p : Decimal} {ps : List Decimal} {ts : List Tick}

/-! ### Prices -/

/-- What holds of the candle of one price, and is kept by each further price, holds of the candle
of any prices. -/
lemma foldl_improve_induction {P : Candle → List Decimal → Prop}
    (first : ∀ p, P (empty.improve p) [p])
    (next : ∀ c ps p, P c ps → P (c.improve p) (ps ++ [p])) (hps : ps ≠ []) :
    P (ps.foldl improve empty) ps := by
  induction ps using List.reverseRecOn with
  | nil => exact absurd rfl hps
  | append_singleton ps p ih =>
    rw [List.foldl_append]
    by_cases hnil : ps = []
    · subst hnil
      exact first p
    · exact next _ _ p (ih hnil)

/-- What a candle shows of the prices that were folded into it. -/
structure Shows (c : Candle) (ps : List Decimal) : Prop where
  opening_eq : ps.head? = some c.opening
  closing_eq : ps.getLast? = some c.closing
  high_eq : earliest? (· ≤ ·) ps = some c.high
  low_eq : earliest? (· ≥ ·) ps = some c.low
  ticks_eq : c.ticks.toNat = ps.length

lemma Shows.first (p : Decimal) : (empty.improve p).Shows [p] :=
  ⟨rfl, rfl, earliest?_singleton p, earliest?_singleton p, rfl⟩

/-- One more price is folded in, as long as there are numbers to count it. -/
lemma Shows.next (h : c.Shows ps) (hlen : (ps ++ [p]).length < 2 ^ 64) :
    (c.improve p).Shows (ps ++ [p]) := by
  have hhead : ps.head?.isSome := by rw [h.opening_eq]; rfl
  have hne : ps ≠ [] := List.isSome_head?.mp hhead
  have hempty : c.isEmpty = false := by
    rw [isEmpty, beq_eq_false_iff_ne, ne_eq, ← UInt64.toNat_inj, h.ticks_eq]
    exact (List.length_pos_iff.mpr hne).ne'
  simp only [improve, hempty, Bool.false_eq_true, if_false]
  refine ⟨?_, ?_, ?_, ?_, ?_⟩
  · rw [List.head?_append_of_ne_nil _ hne, h.opening_eq]
  · exact List.getLast?_concat
  · rw [earliest?_append_singleton h.high_eq, Decimal.max_eq_ite]
  · rw [earliest?_append_singleton h.low_eq, Decimal.min_eq_ite]
  · rw [List.length_append] at hlen ⊢
    rw [UInt64.toNat_add, h.ticks_eq]
    exact Nat.mod_eq_of_lt hlen

lemma Shows.of_foldl (hps : ps ≠ []) (hlen : ps.length < 2 ^ 64) :
    (ps.foldl improve empty).Shows ps := by
  refine foldl_improve_induction (P := fun c ps => ps.length < 2 ^ 64 → c.Shows ps) ?_ ?_ hps hlen
  · intro p _
    exact .first p
  · intro c ps p ih hlen
    refine (ih ?_).next hlen
    rw [List.length_append] at hlen
    omega

/-- Each price of a candle is one of those that were folded into it. -/
structure DrawnFrom (c : Candle) (ps : List Decimal) : Prop where
  opening_mem : c.opening ∈ ps
  high_mem : c.high ∈ ps
  low_mem : c.low ∈ ps
  closing_mem : c.closing ∈ ps

lemma DrawnFrom.first (p : Decimal) : (empty.improve p).DrawnFrom [p] :=
  ⟨List.mem_cons_self, List.mem_cons_self, List.mem_cons_self, List.mem_cons_self⟩

lemma DrawnFrom.next (h : c.DrawnFrom ps) (p : Decimal) : (c.improve p).DrawnFrom (ps ++ [p]) := by
  have hp : p ∈ ps ++ [p] := List.mem_append_right _ List.mem_cons_self
  have hold {q : Decimal} (hq : q ∈ ps) : q ∈ ps ++ [p] := List.mem_append_left _ hq
  simp only [improve, Decimal.max, Decimal.min]
  refine ⟨?_, ?_, ?_, hp⟩ <;> dsimp only <;> split_ifs
  exacts [hp, hold h.opening_mem, hp, hp, hold h.high_mem, hp, hp, hold h.low_mem]

/-- The first and the last price lie between the lowest and the highest one. -/
structure Ordered (c : Candle) : Prop where
  low_le_opening : c.low ≤ c.opening
  opening_le_high : c.opening ≤ c.high
  low_le_closing : c.low ≤ c.closing
  closing_le_high : c.closing ≤ c.high

/-- A price keeps a bar in order, whatever the candle shows that counts no ticks. -/
lemma Ordered.improve (h : c.isEmpty = false → c.Ordered) (price : Decimal) :
    (c.improve price).Ordered := by
  cases hempty : c.isEmpty with
  | true =>
    simp only [Candle.improve, hempty, if_true]
    exact ⟨le_rfl, le_rfl, le_rfl, le_rfl⟩
  | false =>
    obtain ⟨hlow, hhigh, -, -⟩ := h hempty
    simp only [Candle.improve, hempty, Bool.false_eq_true, if_false]
    exact ⟨(Decimal.min_le_left _ _).trans hlow, hhigh.trans (Decimal.le_max_left _ _),
      Decimal.min_le_right _ _, Decimal.le_max_right _ _⟩

/-- Prices make a bar that is in order and drawn from them, however many they are. -/
lemma bar_foldl (hps : ps ≠ []) :
    (ps.foldl improve empty).Ordered ∧ (ps.foldl improve empty).DrawnFrom ps := by
  refine foldl_improve_induction (P := fun c ps => c.Ordered ∧ c.DrawnFrom ps) ?_ ?_ hps
  · intro p
    refine ⟨.improve ?_ p, .first p⟩
    intro hsome
    cases hsome
  · intro c ps p ⟨hordered, hdrawn⟩
    exact ⟨.improve (fun _ => hordered) p, hdrawn.next p⟩

/-! ### Ticks -/

/-- Folds in a tick, with its quantity if it has one. -/
def take (c : Candle) (t : Tick) : Except Overflow Candle :=
  match t.quantity? with
  | none => .ok (c.improve t.price)
  | some quantity => c.improveWithVolume t.price quantity

/-- The candle of a run of ticks. -/
def ofTicks (ts : List Tick) : Except Overflow Candle :=
  ts.foldlM take empty

/-- The quantities that were traded. -/
def quantities (ts : List Tick) : List Decimal :=
  ts.filterMap (·.quantity?)

lemma foldl_improve_withVolume (c : Candle) (v : Decimal) (ps : List Decimal) :
    ps.foldl improve { c with volume := v } =
      { ps.foldl improve c with volume := v } := by
  induction ps generalizing c with
  | nil => rfl
  | cons p ps ih => exact ih (c.improve p)

/-- Prices and quantities are folded apart, and only the quantities can overflow. -/
lemma foldlM_take (c : Candle) (ts : List Tick) :
    ts.foldlM take c =
      ((quantities ts).foldlM Decimal.add c.volume).map fun volume =>
        { (ts.map (·.price)).foldl improve c with volume } := by
  induction ts generalizing c with
  | nil => rfl
  | cons t ts ih =>
    obtain ⟨p, quantity?⟩ := t
    rw [List.foldlM_cons]
    cases quantity? with
    | none => exact ih (c.improve p)
    | some q =>
      have hvolume : (c.improve p).volume = c.volume := rfl
      change (c.improveWithVolume p q >>= fun c => ts.foldlM take c) =
        ((q :: quantities ts).foldlM Decimal.add c.volume).map _
      rw [List.foldlM_cons, improveWithVolume, addVolume, hvolume]
      cases c.volume.add q with
      | error cause => rfl
      | ok v =>
        refine (ih { c.improve p with volume := v }).trans ?_
        rw [foldl_improve_withVolume]
        rfl

/-- Prices alone always have a candle. -/
lemma ofTicks_of_prices (ps : List Decimal) :
    ofTicks (ps.map (⟨·, none⟩)) = .ok (ps.foldl improve empty) := by
  have hquantities : quantities (ps.map (⟨·, none⟩)) = [] := by
    rw [quantities, List.filterMap_map, List.filterMap_eq_nil_iff]
    exact fun _ _ => rfl
  have hprices : (ps.map fun p => (⟨p, none⟩ : Tick)).map (·.price) = ps := by
    rw [List.map_map]
    exact List.map_id ps
  rw [ofTicks, foldlM_take, hquantities, hprices, List.foldlM_nil]
  change Except.ok { ps.foldl improve empty with volume := empty.volume } = _
  rw [← foldl_improve_withVolume]

lemma eq_of_ofTicks (h : ofTicks ts = .ok c) :
    ∃ volume, c = { (ts.map (·.price)).foldl improve empty with volume } := by
  rw [ofTicks, foldlM_take] at h
  cases hsum : (quantities ts).foldlM Decimal.add empty.volume with
  | error cause =>
    rw [hsum] at h
    cases h
  | ok volume =>
    rw [hsum] at h
    exact ⟨volume, (Except.ok.inj h).symm⟩

lemma bar_ofTicks (hts : ts ≠ []) (h : ofTicks ts = .ok c) :
    c.Ordered ∧ c.DrawnFrom (ts.map (·.price)) := by
  obtain ⟨volume, rfl⟩ := eq_of_ofTicks h
  obtain ⟨⟨hlow, hhigh, hlow', hhigh'⟩, hopening, hmem, hmem', hclosing⟩ :=
    bar_foldl (mt List.map_eq_nil_iff.mp hts)
  exact ⟨⟨hlow, hhigh, hlow', hhigh'⟩, hopening, hmem, hmem', hclosing⟩

lemma shows_ofTicks (hts : ts ≠ []) (hlen : ts.length < 2 ^ 64) (h : ofTicks ts = .ok c) :
    c.Shows (ts.map (·.price)) := by
  obtain ⟨volume, rfl⟩ := eq_of_ofTicks h
  have hps : ts.map (·.price) ≠ [] := mt List.map_eq_nil_iff.mp hts
  obtain ⟨hopening, hclosing, hhigh, hlow, hticks⟩ :=
    Shows.of_foldl hps (by rwa [List.length_map])
  exact ⟨hopening, hclosing, hhigh, hlow, hticks⟩

/-- Ticks whose running sums have decimals have a candle, and its volume is exact. -/
lemma exists_ofTicks (h : Decimal.zero.HasRunningSums (quantities ts)) :
    ∃ c, ofTicks ts = .ok c ∧ c.volume.toRat = ((quantities ts).map Decimal.toRat).sum := by
  obtain ⟨volume, hvolume, hsum⟩ := h.addsUp.foldlM_add
  refine ⟨{ (ts.map (·.price)).foldl improve empty with volume }, ?_, ?_⟩
  · rw [ofTicks, foldlM_take, show empty.volume = .zero from rfl, hvolume]
    rfl
  · rw [hsum, Decimal.toRat_zero, zero_add]

/--
A candle of some ticks shows the first and the last price, and the earliest of the highest and of
the lowest ones. Its volume is the sum of the quantities if decimals stand for the running sums.
-/
theorem ofTicks_exact (hts : ts ≠ []) (hlen : ts.length < 2 ^ 64) :
    (∀ c, ofTicks ts = .ok c →
        c.Shows (ts.map (·.price)) ∧ c.Ordered ∧ c.DrawnFrom (ts.map (·.price))) ∧
      (Decimal.zero.HasRunningSums (quantities ts) →
        ∃ c, ofTicks ts = .ok c ∧ c.volume.toRat = ((quantities ts).map Decimal.toRat).sum) := by
  constructor
  · intro c h
    exact ⟨shows_ofTicks hts hlen h, bar_ofTicks hts h⟩
  · exact exists_ofTicks

/-- A price below zero, the same number with one more place, and a trade below both. -/
def sunkTicks : List Tick :=
  [⟨(Decimal.ofMantissa? (-10) 1).get rfl, none⟩, ⟨(Decimal.ofMantissa? (-100) 2).get rfl, none⟩,
    ⟨(Decimal.ofMantissa? (-25) 1).get rfl, Decimal.ofMantissa? 3 0⟩]

/-- Below zero, too, the highest price is one of the ticks, and it is the first one of those that
are the same number. -/
theorem ofTicks_exact_sunk :
    sunkTicks ≠ [] ∧ sunkTicks.length < 2 ^ 64 ∧
      ∃ c, ofTicks sunkTicks = .ok c ∧ c.Shows (sunkTicks.map (·.price)) ∧ c.Ordered ∧
        c.high = c.opening ∧ c.low = c.closing ∧
        c.volume.toRat = ((quantities sunkTicks).map Decimal.toRat).sum := by
  have hne : sunkTicks ≠ [] := List.cons_ne_nil _ _
  have hlen : sunkTicks.length < 2 ^ 64 := by decide
  obtain ⟨hshows, hvolume⟩ := ofTicks_exact hne hlen
  obtain ⟨c, hc, hsum⟩ := hvolume (Decimal.hasRunningSums_singleton _)
  obtain ⟨hshown, hordered, -⟩ := hshows c hc
  have hhigh : earliest? (· ≤ ·) (sunkTicks.map (·.price)) = (sunkTicks.map (·.price)).head? := by
    decide
  have hlow : earliest? (· ≥ ·) (sunkTicks.map (·.price)) = (sunkTicks.map (·.price)).getLast? := by
    decide
  rw [hshown.high_eq, hshown.opening_eq, Option.some_inj] at hhigh
  rw [hshown.low_eq, hshown.closing_eq, Option.some_inj] at hlow
  exact ⟨hne, hlen, c, hc, hshown, hordered, hhigh, hlow, hsum⟩

end Candle

end Candlestick
