import Candlestick.Bucket
import Candlestick.Proofs.Candle.Fold

/-!
# What a bucket holds

Adding ticks to a bucket puts them at the end of their categories (`Bucket.ticksOf_pushAll`), in
both layouts, or fails and leaves the bucket as it is (`Bucket.add_eq`, `Bucket.addSandwich_eq`).
The candles of a bucket are those of the ticks it took in, in the order they came
(`Bucket.aggregate_pushAll_empty`).
-/

namespace Candlestick

/-- A call that looks at the state first. -/
lemma get_bind {ε σ α : Type} (f : σ → EStateM ε σ α) (s : σ) :
    (get >>= f : EStateM ε σ α) s = f s s := rfl

/-- Arrays that are kept apart hold ticks of their own category only. -/
def Storage.IsSorted : Storage → Prop
  | .flat _ => True
  | .perCategory ticks => ∀ c, ∀ r ∈ (ticks.get c).toList, r.category = c

lemma Storage.isSorted_empty (layout : Layout) : (Storage.empty layout).IsSorted := by
  cases layout with
  | flat => trivial
  | perCategory => intro c r hr; simp at hr

lemma Storage.IsSorted.push {s : Storage} (h : s.IsSorted) (r : TickRecord) :
    (s.push r).IsSorted := by
  cases s with
  | flat ticks => trivial
  | perCategory ticks =>
    intro c s hs
    rw [ByCategory.get_modify] at hs
    split_ifs at hs with hc
    · rcases List.mem_append.mp (Array.toList_push ▸ hs) with hs | hs
      · exact h c s hs
      · rw [List.mem_singleton.mp hs, hc]
    · exact h c s hs

@[simp] lemma Storage.layout_empty (layout : Layout) : (Storage.empty layout).layout = layout := by
  cases layout <;> rfl

@[simp] lemma Storage.layout_push (s : Storage) (r : TickRecord) :
    (s.push r).layout = s.layout := by
  cases s <;> rfl

namespace Bucket

variable {b : Bucket} {r : TickRecord} {rs : List TickRecord} {key : ContractKey}

/-- The bucket with more ticks, whether or not there is room. -/
def pushAll (b : Bucket) (rs : List TickRecord) : Bucket :=
  rs.foldl push b

@[simp] lemma pushAll_nil (b : Bucket) : b.pushAll [] = b := rfl

@[simp] lemma pushAll_cons (b : Bucket) (r : TickRecord) (rs : List TickRecord) :
    b.pushAll (r :: rs) = (b.push r).pushAll rs := rfl

lemma pushAll_append (b : Bucket) (rs ss : List TickRecord) :
    b.pushAll (rs ++ ss) = (b.pushAll rs).pushAll ss :=
  List.foldl_append

/-! ### What stays -/

@[simp] lemma layout_empty (layout : Layout) (n : Nat) : (empty layout n).layout = layout :=
  Storage.layout_empty layout

@[simp] lemma key_push (b : Bucket) (r : TickRecord) : (b.push r).key = b.key := rfl

@[simp] lemma layout_push (b : Bucket) (r : TickRecord) : (b.push r).layout = b.layout :=
  Storage.layout_push b.storage r

@[simp] lemma capacity_push (b : Bucket) (r : TickRecord) : (b.push r).capacity = b.capacity := rfl

/-- What no single tick changes, no run of ticks changes. -/
lemma pushAll_frame {α : Type} {f : Bucket → α} (h : ∀ b r, f (b.push r) = f b) (b : Bucket)
    (rs : List TickRecord) : f (b.pushAll rs) = f b := by
  induction rs generalizing b with
  | nil => rfl
  | cons r rs ih => exact (ih (b.push r)).trans (h b r)

@[simp] lemma key_pushAll (b : Bucket) (rs : List TickRecord) : (b.pushAll rs).key = b.key :=
  pushAll_frame key_push b rs

@[simp] lemma layout_pushAll (b : Bucket) (rs : List TickRecord) :
    (b.pushAll rs).layout = b.layout :=
  pushAll_frame layout_push b rs

@[simp] lemma capacity_pushAll (b : Bucket) (rs : List TickRecord) :
    (b.pushAll rs).capacity = b.capacity :=
  pushAll_frame capacity_push b rs

@[simp] lemma key_flush (b : Bucket) : b.flush.key = b.key := rfl

@[simp] lemma layout_flush (b : Bucket) : b.flush.layout = b.layout :=
  Storage.layout_empty b.layout

@[simp] lemma capacity_flush (b : Bucket) : b.flush.capacity = b.capacity := rfl

/-- A bucket is flushed to what it was when its contract claimed it. -/
lemma flush_eq_claim (b : Bucket) : b.flush = (empty b.layout b.capacity).claim b.key := rfl

lemma flush_pushAll_claim (layout : Layout) (n : Nat) (key : ContractKey) (rs : List TickRecord) :
    (((empty layout n).claim key).pushAll rs).flush = (empty layout n).claim key := by
  rw [flush_eq_claim, layout_pushAll, capacity_pushAll, key_pushAll]
  exact congrArg (fun l => (empty l n).claim key) (layout_empty layout n)

/-- A bucket is rinsed to what it was when it was made. -/
lemma rinse_eq_empty (b : Bucket) : b.rinse = empty b.layout b.capacity := rfl

/-! ### Ticks -/

lemma ticksOf_empty_claim (layout : Layout) (n : Nat) (key : ContractKey) (c : Category) :
    ((empty layout n).claim key).ticksOf c = [] := by
  cases layout <;> simp [empty, claim, ticksOf, Storage.empty, Storage.array]

/-- A tick joins the end of its category, whatever the layout. -/
lemma ticksOf_push (b : Bucket) (r : TickRecord) (c : Category) :
    (b.push r).ticksOf c = b.ticksOf c ++ c.select [r] := by
  cases hs : b.storage with
  | flat ticks => simp [push, ticksOf, hs, Storage.push, Storage.array, Category.select]
  | perCategory ticks =>
    simp only [push, ticksOf, hs, Storage.push, Storage.array, ByCategory.get_modify,
      Category.select_cons, Category.select_nil]
    split_ifs with hc <;> simp [List.filter_append, hc]

lemma ticksOf_pushAll (b : Bucket) (rs : List TickRecord) (c : Category) :
    (b.pushAll rs).ticksOf c = b.ticksOf c ++ c.select rs := by
  induction rs generalizing b with
  | nil => simp
  | cons r rs ih =>
    rw [pushAll_cons, ih, ticksOf_push, List.append_assoc, ← Category.select_append,
      List.singleton_append]

/-- Ticks that are not kept apart are listed in order of arrival. -/
lemma ticks_push_of_flat (h : b.layout = .flat) (r : TickRecord) :
    (b.push r).ticks = b.ticks ++ [r] := by
  rw [layout] at h
  cases hs : b.storage with
  | flat ticks => simp [Bucket.ticks, push, hs, Storage.push, Storage.arrays]
  | perCategory ticks =>
    rw [hs] at h
    cases h

lemma ticks_pushAll_of_flat (h : b.layout = .flat) (rs : List TickRecord) :
    (b.pushAll rs).ticks = b.ticks ++ rs := by
  induction rs generalizing b with
  | nil => simp
  | cons r rs ih => simp [ih ((layout_push b r).trans h), ticks_push_of_flat h]

/-- Ticks that the bucket keeps apart are of the category they are kept for. -/
def IsSorted (b : Bucket) : Prop :=
  b.storage.IsSorted

lemma isSorted_empty_claim (layout : Layout) (n : Nat) (key : ContractKey) :
    ((empty layout n).claim key).IsSorted :=
  Storage.isSorted_empty layout

lemma IsSorted.push (h : b.IsSorted) (r : TickRecord) : (b.push r).IsSorted :=
  Storage.IsSorted.push h r

lemma IsSorted.pushAll (h : b.IsSorted) (rs : List TickRecord) : (b.pushAll rs).IsSorted := by
  induction rs generalizing b with
  | nil => exact h
  | cons r rs ih => exact ih (h.push r)

/-- An array that is kept for a category has all ticks of that category, and no others. -/
lemma IsSorted.toList_get (h : b.IsSorted) {ticks : ByCategory (Array TickRecord)}
    (hs : b.storage = .perCategory ticks) (c : Category) : (ticks.get c).toList = b.ticksOf c := by
  have hsorted : ∀ r ∈ (ticks.get c).toList, r.category = c := by
    rw [IsSorted, hs] at h
    exact h c
  rw [ticksOf, hs]
  exact (Category.select_eq_self hsorted).symm

/-- Ticks that are kept apart are listed category by category. -/
lemma IsSorted.ticks_eq_append (h : b.IsSorted) (hlayout : b.layout = .perCategory) :
    b.ticks = b.ticksOf .bid ++ b.ticksOf .ask ++ b.ticksOf .trade := by
  rw [layout] at hlayout
  cases hs : b.storage with
  | flat ticks =>
    rw [hs] at hlayout
    cases hlayout
  | perCategory ticks =>
    rw [← h.toList_get hs, ← h.toList_get hs, ← h.toList_get hs]
    simp [Bucket.ticks, hs, Storage.arrays, ByCategory.toList, ByCategory.get]

/-- Storage order keeps the order within each category. -/
lemma IsSorted.select_ticks (h : b.IsSorted) (c : Category) : c.select b.ticks = b.ticksOf c := by
  have hof (d : Category) : c.select (b.ticksOf d) = if d = c then b.ticksOf c else [] := by
    split_ifs with hd
    · exact hd ▸ Category.select_eq_self fun r hr => by simpa using (List.mem_filter.mp hr).2
    · exact Category.select_eq_nil fun r hr hc =>
        hd ((eq_of_beq (List.mem_filter.mp hr).2).symm.trans hc)
  cases hs : b.storage with
  | flat ticks => simp [Bucket.ticks, ticksOf, hs, Storage.arrays, Storage.array, Category.select]
  | perCategory ticks =>
    have hlayout : b.layout = .perCategory := by
      rw [layout, hs]
      rfl
    rw [h.ticks_eq_append hlayout, Category.select_append, Category.select_append, hof, hof, hof]
    cases c <;> simp

/-- The candles of a bucket are those of the ticks it took in, in order of arrival. -/
lemma aggregate_pushAll_empty (layout : Layout) (n : Nat) (key : ContractKey)
    (rs : List TickRecord) :
    (((empty layout n).claim key).pushAll rs).aggregate = ContractCandle.ofRecords rs := by
  apply ContractCandle.ofRecords_congr
  intro c
  rw [((isSorted_empty_claim layout n key).pushAll rs).select_ticks, ticksOf_pushAll,
    ticksOf_empty_claim, List.nil_append]

/-! ### Numbers of ticks -/

lemma size_push (b : Bucket) (r : TickRecord) : (b.push r).size = b.size + 1 := by
  cases hs : b.storage with
  | flat ticks => simp [push, size, hs, Storage.push, Storage.arrays]
  | perCategory ticks =>
    simp only [push, size, hs, Storage.push, Storage.arrays, ByCategory.toList, ByCategory.modify]
    cases r.category <;> simp <;> omega

lemma size_pushAll (b : Bucket) (rs : List TickRecord) :
    (b.pushAll rs).size = b.size + rs.length := by
  induction rs generalizing b with
  | nil => rfl
  | cons r rs ih =>
    rw [pushAll_cons, ih, size_push, List.length_cons]
    omega

lemma IsSorted.sizeOf_eq (h : b.IsSorted) (c : Category) : b.sizeOf c = (b.ticksOf c).length := by
  cases hs : b.storage with
  | flat ticks =>
    simp [sizeOf, ticksOf, hs, Storage.array, ← Array.countP_toList, List.countP_eq_length_filter]
  | perCategory ticks =>
    rw [← h.toList_get hs, sizeOf, hs]
    rfl

lemma size_empty_claim (layout : Layout) (n : Nat) (key : ContractKey) :
    ((empty layout n).claim key).size = 0 := by
  cases layout <;> rfl

/-! ### Calls -/

/-- A tick that does not fit leaves the bucket as it is. -/
lemma add_eq (r : TickRecord) (b : Bucket) :
    add r b =
      if b.isFullFor r.category then .error (b.fullError r.category) b else .ok () (b.push r) := by
  rw [add, get_bind]
  split_ifs <;> rfl

/-- Ticks that are pushed one after the other are pushed without fail. -/
lemma forM_push_eq (rs : List TickRecord) (b : Bucket) :
    (rs.forM (fun r => modify (push · r)) : Call Unit) b = .ok () (b.pushAll rs) := by
  induction rs generalizing b with
  | nil => rfl
  | cons r rs ih => exact ih (b.push r)

/-- A sandwich that does not fit leaves the bucket as it is. -/
lemma addSandwich_eq (s : Sandwich) (b : Bucket) :
    addSandwich s b =
      match b.lackFor? s with
      | some e => .error e b
      | none => .ok () (b.pushAll s.records) := by
  rw [addSandwich, get_bind]
  cases b.lackFor? s with
  | some e => rfl
  | none => exact forM_push_eq s.records b

/-- A way to add ticks to a bucket: all of them in their order, or none for lack of room. -/
def Appends (add : Call Unit) (rs : List TickRecord) : Prop :=
  ∀ b, add b = .ok () (b.pushAll rs) ∨ ∃ c, add b = .error (.bucketFull b.key c) b

lemma appends_add (r : TickRecord) : Appends (add r) [r] := by
  intro b
  rw [add_eq, fullError]
  split_ifs
  · cases b.layout with
    | flat => exact .inr ⟨none, rfl⟩
    | perCategory => exact .inr ⟨some r.category, rfl⟩
  · exact .inl rfl

lemma lackFor?_eq_some {b : Bucket} {s : Sandwich} {e : Error} (h : b.lackFor? s = some e) :
    ∃ c, e = .bucketFull b.key c := by
  unfold lackFor? at h
  split at h
  · split_ifs at h
    exact ⟨none, (Option.some.inj h).symm⟩
  · obtain ⟨c, -, hc⟩ := Option.map_eq_some_iff.mp h
    exact ⟨some c, hc.symm⟩

lemma appends_addSandwich (s : Sandwich) : Appends (addSandwich s) s.records := by
  intro b
  rw [addSandwich_eq]
  cases h : b.lackFor? s with
  | none => exact .inl rfl
  | some e =>
    obtain ⟨c, rfl⟩ := lackFor?_eq_some h
    exact .inr ⟨c, rfl⟩

/-- A bucket without ticks takes in a tick if it has any room at all. -/
lemma add_empty_claim (layout : Layout) {n : Nat} (hn : 0 < n) (key : ContractKey)
    (r : TickRecord) :
    add r ((empty layout n).claim key) = .ok () (((empty layout n).claim key).push r) := by
  have hroom : ((empty layout n).claim key).isFullFor r.category = false := by
    cases layout <;> simp [isFullFor, empty, claim, Storage.empty, Storage.array] <;> omega
  rw [add_eq, hroom]
  rfl

/-- A bucket without ticks is one that its contract has newly claimed. -/
lemma eq_claim_of_isEmpty (h : b.isEmpty) : b = (empty b.layout b.capacity).claim b.key := by
  obtain ⟨key, capacity, storage⟩ := b
  cases storage with
  | flat ticks =>
    have hnil : ticks = #[] := by simpa [isEmpty, Storage.arrays] using h
    rw [hnil]
    rfl
  | perCategory ticks =>
    obtain ⟨bid, ask, trade⟩ := ticks
    obtain ⟨hbid, hask, htrade⟩ : bid = #[] ∧ ask = #[] ∧ trade = #[] := by
      simpa [isEmpty, Storage.arrays, ByCategory.toList] using h
    rw [hbid, hask, htrade]
    rfl

/-- What a bucket without ticks lacks for a sandwich: room for a category, or for all legs. -/
lemma lackFor?_empty_claim (layout : Layout) (n : Nat) (key : ContractKey) (s : Sandwich) :
    ((empty layout n).claim key).lackFor? s =
      match layout with
      | .flat => if n < s.size then some (.bucketFull key none) else none
      | .perCategory =>
        (Category.all.find? fun c => n < s.count c).map fun c => .bucketFull key (some c) := by
  cases layout <;> simp [lackFor?, empty, claim, Storage.empty]

end Bucket

end Candlestick
