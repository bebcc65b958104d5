import Candlestick.Proofs.Bucket.Content

/-!
# Room in a bucket

A bucket never takes in more ticks than it has room for: what is added passes a check first
(`Bucket.Within.add`, `Bucket.Within.addSandwich`). The check of a sandwich counts its legs by
category, and passes just if the legs could be added one by one
(`Bucket.Within.addSandwich_eq_ok_iff_forM`).
-/

namespace Candlestick

/-- How much of the room for a category some ticks take up. -/
def Layout.share (layout : Layout) (c : Category) (rs : List TickRecord) : Nat :=
  match layout with
  | .flat => rs.length
  | .perCategory => (c.select rs).length

namespace Layout

variable {layout : Layout} {n : Nat} {rs : List TickRecord}

/-- How many ticks there is room for in all, with room for `n` in each array. -/
def room (layout : Layout) (n : Nat) : Nat :=
  match layout with
  | .flat => n
  | .perCategory => 3 * n

lemma length_select_le_share (layout : Layout) (category : Category)
    (rs : List TickRecord) : (category.select rs).length ≤ layout.share category rs := by
  cases layout with
  | flat => exact List.length_filter_le _ _
  | perCategory => exact le_rfl

@[simp] lemma share_nil (layout : Layout) (c : Category) : layout.share c [] = 0 := by
  cases layout <;> rfl

lemma share_cons (layout : Layout) (c : Category) (r : TickRecord) (rs : List TickRecord) :
    layout.share c (r :: rs) = layout.share c [r] + layout.share c rs := by
  cases layout with
  | flat => exact Nat.add_comm _ _
  | perCategory => exact List.length_append ▸ congrArg List.length (c.select_append [r] rs)

/-- A tick takes up room for its own category. -/
@[simp] lemma share_category (layout : Layout) (r : TickRecord) :
    layout.share r.category [r] = 1 := by
  cases layout with
  | flat => rfl
  | perCategory => simp [share, Category.select_cons]

lemma length_le_room (h : ∀ c, layout.share c rs ≤ n) : rs.length ≤ layout.room n := by
  cases layout with
  | flat => exact h .trade
  | perCategory =>
    have hbid : (Category.bid.select rs).length ≤ n := h .bid
    have hask : (Category.ask.select rs).length ≤ n := h .ask
    have htrade : (Category.trade.select rs).length ≤ n := h .trade
    rw [← Category.length_select, room]
    omega

end Layout

lemma Storage.size_array_push (s : Storage) (r : TickRecord) (c : Category) :
    ((s.push r).array c).size = (s.array c).size + s.layout.share c [r] := by
  cases s with
  | flat ticks => exact Array.size_push r
  | perCategory ticks =>
    change ((ticks.modify (·.push r) r.category).get c).size = _ + (c.select [r]).length
    rw [ByCategory.get_modify, Category.select_cons]
    split_ifs
    · exact Array.size_push r
    · rfl

lemma Sandwich.length_select_records (s : Sandwich) (c : Category) :
    (c.select s.records).length = s.count c := by
  rw [Category.select, records, ← List.countP_eq_length_filter, List.countP_map]
  rfl

/-- The only category that passes a test is the one that a search finds. -/
lemma Category.find?_all_of_ne {p : Category → Bool} {c : Category} (hc : p c = true)
    (hne : ∀ d, d ≠ c → p d = false) : all.find? p = some c := by
  cases c <;> simp [all, hc, hne]

namespace Bucket

variable {b b' : Bucket} {r : TickRecord} {rs : List TickRecord} {s : Sandwich}

/-! ### How full a bucket is -/

/-- No array has more ticks than there is room for. -/
def Within (b : Bucket) : Prop :=
  ∀ c, (b.storage.array c).size ≤ b.capacity

/-- Some ticks have room next to those that are there. -/
def HasRoom (b : Bucket) (rs : List TickRecord) : Prop :=
  ∀ c, (b.storage.array c).size + b.layout.share c rs ≤ b.capacity

lemma within_empty_claim (layout : Layout) (n : Nat) (key : ContractKey) :
    ((empty layout n).claim key).Within := by
  intro c
  cases layout <;> cases c <;> exact Nat.zero_le n

/-- A bucket does not have more ticks of a category than it has room for. -/
lemma Within.length_ticksOf_le (h : b.Within) (c : Category) :
    (b.ticksOf c).length ≤ b.capacity :=
  (List.length_filter_le _ _).trans (h c)

lemma size_array_pushAll (b : Bucket) (rs : List TickRecord) (c : Category) :
    ((b.pushAll rs).storage.array c).size = (b.storage.array c).size + b.layout.share c rs := by
  induction rs generalizing b with
  | nil => simp
  | cons r rs ih =>
    rw [pushAll_cons, ih, layout_push, Layout.share_cons, ← Nat.add_assoc]
    exact congrArg (· + _) (b.storage.size_array_push r c)

lemma hasRoom_nil_iff : b.HasRoom [] ↔ b.Within := by
  simp [HasRoom, Within]

/-- Room for ticks after a tick is room for all of them. -/
lemma hasRoom_push_iff : (b.push r).HasRoom rs ↔ b.HasRoom (r :: rs) := by
  apply forall_congr'
  intro c
  rw [layout_push, capacity_push, Layout.share_cons, ← Nat.add_assoc]
  exact (b.storage.size_array_push r c).symm ▸ Iff.rfl

lemma HasRoom.head (h : b.HasRoom (r :: rs)) : b.HasRoom [r] := by
  intro c
  have hroom := h c
  rw [Layout.share_cons, ← Nat.add_assoc] at hroom
  exact Nat.le_of_add_right_le hroom

/-- What has room can be added tick by tick. -/
lemma HasRoom.isFullFor_eq_false (h : b.HasRoom (r :: rs)) : b.isFullFor r.category = false := by
  have hroom := h r.category
  rw [Layout.share_cons, Layout.share_category] at hroom
  rw [isFullFor, decide_eq_false_iff_not]
  omega

/-- A bucket with the room that its check asks for has room for the ticks. -/
lemma HasRoom.within_pushAll (h : b.HasRoom rs) : (b.pushAll rs).Within := by
  intro c
  rw [size_array_pushAll, capacity_pushAll]
  exact h c

/-- What has room next to other ticks has room without them. -/
lemma HasRoom.empty_claim {layout : Layout} {n : Nat} (h : b.HasRoom rs)
    (hlayout : b.layout = layout) (hcapacity : b.capacity = n) (key : ContractKey) :
    ((empty layout n).claim key).HasRoom rs := by
  intro c
  have hsize : (((empty layout n).claim key).storage.array c).size = 0 := by
    cases layout <;> cases c <;> rfl
  have hempty : ((empty layout n).claim key).layout = layout := layout_empty layout n
  rw [hsize, hempty, Nat.zero_add, ← hlayout]
  exact (Nat.le_add_left _ _).trans ((h c).trans_eq hcapacity)

/-! ### Ticks one by one -/

lemma Within.hasRoom_singleton (h : b.Within) (hroom : b.isFullFor r.category = false) :
    b.HasRoom [r] := by
  have hlt : (b.storage.array r.category).size < b.capacity := by
    simpa [isFullFor] using hroom
  intro c
  have hc := h c
  cases hs : b.storage with
  | flat ticks =>
    rw [hs] at hlt
    rw [layout, hs]
    exact hlt
  | perCategory ticks =>
    rw [hs] at hlt hc
    rw [layout, hs]
    change _ + (c.select [r]).length ≤ _
    rw [Category.select_cons]
    split_ifs with hcategory
    · exact hcategory ▸ hlt
    · exact hc

lemma add_eq_ok_iff : add r b = .ok () b' ↔ b.isFullFor r.category = false ∧ b' = b.push r := by
  rw [add_eq]
  split_ifs with hfull <;> simp [hfull, eq_comm]

lemma Within.add (h : b.Within) (hadd : Bucket.add r b = .ok () b') : b'.Within := by
  obtain ⟨hroom, rfl⟩ := add_eq_ok_iff.mp hadd
  exact (h.hasRoom_singleton hroom).within_pushAll

/-- Ticks can be added one by one just if there is room for all of them. -/
lemma Within.forM_add_eq_ok_iff (h : b.Within) :
    rs.forM Bucket.add b = .ok () b' ↔ b.HasRoom rs ∧ b' = b.pushAll rs := by
  induction rs generalizing b with
  | nil =>
    change EStateM.Result.ok () b = .ok () b' ↔ _
    simp [hasRoom_nil_iff, h, eq_comm]
  | cons r rs ih =>
    change EStateM.bind (Bucket.add r) (fun _ => rs.forM Bucket.add) b = _ ↔ _
    rw [EStateM.bind, pushAll_cons]
    cases hadd : Bucket.add r b with
    | error e c =>
      constructor
      · intro hok
        cases hok
      · rintro ⟨hroom, -⟩
        cases hadd.symm.trans (add_eq_ok_iff.mpr ⟨hroom.isFullFor_eq_false, rfl⟩)
    | ok _ c =>
      have hc := h.add hadd
      obtain ⟨-, rfl⟩ := add_eq_ok_iff.mp hadd
      rw [← hasRoom_push_iff]
      exact ih hc

/-! ### Sandwiches -/

lemma lackFor?_eq_none_iff : b.lackFor? s = none ↔ b.HasRoom s.records := by
  rw [lackFor?, HasRoom, layout]
  cases b.storage with
  | flat ticks =>
    have : Nonempty Category := ⟨.trade⟩
    simp [Storage.layout, Storage.array, Layout.share, s.length_records]
  | perCategory ticks =>
    simp [Storage.layout, Storage.array, Layout.share, s.length_select_records, Category.mem_all]

lemma addSandwich_eq_ok_iff :
    addSandwich s b = .ok () b' ↔ b.HasRoom s.records ∧ b' = b.pushAll s.records := by
  rw [← lackFor?_eq_none_iff, addSandwich_eq]
  cases b.lackFor? s with
  | none => simp [eq_comm]
  | some e => simp

lemma Within.addSandwich (hadd : Bucket.addSandwich s b = .ok () b') : b'.Within := by
  obtain ⟨hroom, rfl⟩ := addSandwich_eq_ok_iff.mp hadd
  exact hroom.within_pushAll

/-- A tick that has no room is one leg that has no room. -/
lemma Within.lackFor?_single (h : b.Within) (hfull : b.isFullFor r.category) :
    b.lackFor? (.single r) = some (b.fullError r.category) := by
  rw [isFullFor, decide_eq_true_eq] at hfull
  rw [lackFor?, fullError, layout]
  cases hs : b.storage with
  | flat ticks =>
    rw [hs] at hfull
    exact if_pos (Nat.lt_succ_of_le hfull)
  | perCategory ticks =>
    rw [hs] at hfull
    refine Option.map_eq_some_iff.mpr ⟨r.category, Category.find?_all_of_ne ?_ ?_, rfl⟩
    · rw [Storage.array] at hfull
      simpa [Sandwich.count, Sandwich.single, TickRecord.leg] using Nat.lt_succ_of_le hfull
    · intro c hc
      have hle := h c
      rw [hs, Storage.array] at hle
      simpa [Sandwich.count, Sandwich.single, TickRecord.leg, Ne.symm hc] using hle

/-- A sandwich of one leg has room where its leg has, and is refused like it. -/
lemma Within.addSandwich_single (h : b.Within) (r : TickRecord) :
    Bucket.addSandwich (.single r) b = Bucket.add r b := by
  cases hfull : b.isFullFor r.category with
  | false =>
    rw [add_eq_ok_iff.mpr ⟨hfull, rfl⟩]
    exact addSandwich_eq_ok_iff.mpr ⟨h.hasRoom_singleton hfull, rfl⟩
  | true => rw [addSandwich_eq, h.lackFor?_single hfull, add_eq, if_pos hfull]

/-- A sandwich is taken in just if its legs could be added one by one, to the same effect. -/
lemma Within.addSandwich_eq_ok_iff_forM (h : b.Within) :
    Bucket.addSandwich s b = .ok () b' ↔ s.records.forM Bucket.add b = .ok () b' := by
  rw [addSandwich_eq_ok_iff, h.forM_add_eq_ok_iff]

end Bucket

end Candlestick
