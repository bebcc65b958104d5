import Candlestick.Proofs.Bucket.Change
import Candlestick.Proofs.Candle.Bar
import Candlestick.Proofs.Rollup.Agreement
import Candlestick.Proofs.Rollup.Batches
import Candlestick.Proofs.Rollup.Safety
import Candlestick.Proofs.Table.Insertion

/-!
# Entry points of a rollup

A tick is taken in the same way whether it comes as a record, as a raw record or as a sandwich of
one leg. A sandwich is taken in as its legs would be one by one, as long as these find room: the
first leg then answers for it and the others have nothing to add, or all of them fail alike
(`Rollup.entry_points_agree`). What decides on room is the bucket in the slot that the contract has
or claims, for a sandwich and for its legs (`Rollup.Finds.isCrowded_eq_false_iff`).
-/

namespace Candlestick

namespace Rollup

variable {s s₁ : Rollup} {o o' : Offer} {q : Request} {key : ContractKey} {closed : Option Summary}

/-! ### Offers that add the same -/

/-- Moving to the period of a moment leaves all buckets within their room. -/
lemma Within.rollTo {timestamp : Timestamp} (hs : s.Sound) (h : s.Within)
    (hroll : rollTo timestamp s = .ok closed s₁) :
    s₁.Sound ∧ s₁.Within ∧ s₁.table.newBucket = s.table.newBucket := by
  rcases rollTo_cases hs hroll with ⟨-, rfl⟩ | ⟨hsound, hnil, hnew, -⟩
  · exact ⟨hs, h, rfl⟩
  · exact ⟨hsound, .of_active_eq_nil hnil, hnew⟩

lemma store_congr (hs : s.Sound) (h : s.Within) (hkey : o.key ≠ .null)
    (hfit : o.Fits s.table.newBucket) (legs : Nat) {add : Bucket.Call Unit}
    (hadd : ∀ b, b.Within → add b = o.add b) :
    store o.key legs add s = store o.key legs o.add s := by
  have hinsert := ContractTable.insert_congr hs.table h hkey hadd
  have hinserted := ContractTable.Inserted.of_insert hs.table hkey hfit
  generalize hr : ContractTable.insert o.key o.add s.table = r at hinserted hinsert
  cases hinserted with
  | taken => rw [store_of_ok hinsert, store_of_ok hr]
  | refused _ hcapacity hsome =>
    rw [store_of_error hinsert hcapacity, store_of_error hr hcapacity]
    cases hpolicy : s.overflow with
    | reject => rw [applyPolicy_reject hpolicy, applyPolicy_reject hpolicy]
    | dropTick => rw [applyPolicy_dropTick hpolicy, applyPolicy_dropTick hpolicy]
    | earlyRollup =>
      rw [applyPolicy_earlyRollup hpolicy, applyPolicy_earlyRollup hpolicy]
      have hclosing := Closing.of_takeSummary hs false
      generalize takeSummary false s = r at hclosing
      cases hclosing with
      | idle hnil => exact absurd hnil hsome
      | overflowed => rfl
      | emitted =>
        have hretry : ContractTable.insert o.key add s.emptied.table =
            ContractTable.insert o.key o.add s.emptied.table :=
          ContractTable.insert_congr hs.emptied.table (Within.of_active_eq_nil rfl) hkey hadd
        simp only [hretry]

/-- Offers of the same ticks come to the same if they add the same to buckets with room. -/
lemma offer_congr (hs : s.Sound) (h : s.Within) (hkey : o.key ≠ .null)
    (hfit : o.Fits s.table.newBucket) (hkeys : o'.key = o.key)
    (htimestamp : o'.timestamp = o.timestamp) (hticks : o'.ticks = o.ticks)
    (hadd : ∀ b, b.Within → o'.add b = o.add b) : offer o' s = offer o s := by
  cases hroll : rollTo o.timestamp s with
  | error e s₁ =>
    rw [offer_of_rollTo_error hroll, offer_of_rollTo_error (htimestamp ▸ hroll)]
  | ok closed s₁ =>
    obtain ⟨hs₁, hwithin, hnew⟩ := h.rollTo hs hroll
    rw [offer_of_rollTo_ok hroll, offer_of_rollTo_ok (htimestamp ▸ hroll), hkeys, hticks,
      store_congr hs₁ hwithin hkey (hnew ▸ hfit) _ hadd]

/-- A sandwich of one leg is taken in as its leg. -/
lemma processSandwich_single (hs : s.Sound) (h : s.Within) (key : ContractKey) (r : TickRecord) :
    processSandwich key (.single r) s = process key r s := by
  have hfit := fits_single hs.table key r
  have hlack : (s.table.newBucket.claim key).lackFor? (.single r) = none := by
    obtain ⟨hroom, -⟩ := Bucket.add_eq_ok_iff.mp hfit
    have hwithin : (s.table.newBucket.claim key).Within := Bucket.within_empty_claim _ _ key
    exact Bucket.lackFor?_eq_none_iff.mpr (hwithin.hasRoom_singleton hroom)
  rw [processSandwich_eq, process_eq, hlack]
  split_ifs with hkey
  · rfl
  · exact offer_congr hs h hkey hfit rfl rfl rfl fun b hb => hb.addSandwich_single r

lemma processRaw_tag (key : ContractKey) (r : TickRecord) (s : Rollup) :
    processRaw ⟨key, r.timestamp, r.category.tag, r.price, r.quantity⟩ s = process key r s := by
  refine processRaw_of_ok ?_ s
  simp only [RawTick.decode, Category.ofTag?_tag]
  rfl

/-! ### Requests and their room -/

/-- A bucket takes in the ticks of a request if it has room for them. -/
lemma Request.Offers.add_eq_ok_iff {b : Bucket} (h : q.Offers o) (hb : b.Within) :
    o.add b = .ok () (b.pushAll o.ticks) ↔ b.HasRoom o.ticks := by
  cases h with
  | tick | raw =>
    change Bucket.add _ b = _ ↔ _
    rw [← hb.addSandwich_single]
    exact Bucket.addSandwich_eq_ok_iff.trans (and_iff_left rfl)
  | sandwich => exact Bucket.addSandwich_eq_ok_iff.trans (and_iff_left rfl)

lemma Request.Offers.misfit?_of_hasRoom {new : Bucket} (h : q.Offers o)
    (hroom : (new.claim o.key).HasRoom o.ticks) : q.misfit? new = none := by
  cases h with
  | tick | raw => rfl
  | sandwich => exact Bucket.lackFor?_eq_none_iff.mpr hroom

/-- The state once ticks are in the bucket `b` of slot `i`. -/
def stored (s : Rollup) (t : ContractTable) (i : Nat) (b : Bucket) (rs : List TickRecord) :
    Rollup :=
  { s with
    table := t.put i (b.pushAll rs)
    stats.ticks := s.stats.ticks + rs.length }

lemma stored_append (s : Rollup) (t : ContractTable) (i : Nat) (b : Bucket)
    (rs ss : List TickRecord) :
    stored (stored s t i b rs) (t.put i (b.pushAll rs)) i (b.pushAll rs) ss =
      stored s t i b (rs ++ ss) := by
  simp [stored, Bucket.pushAll_append, Nat.add_assoc]

/-- What a request finds that moves the rollup to its period. -/
structure Finds (s : Rollup) (q : Request) (o : Offer) (closed : Option Summary) (s₁ : Rollup) :
    Prop where
  offer?_eq : q.offer? = some o
  key_ne_null : o.key ≠ .null
  rollTo_eq : rollTo o.timestamp s = .ok closed s₁
  newBucket_eq : s₁.table.newBucket = s.table.newBucket

namespace Finds

variable {i : Nat} {b : Bucket} {t : ContractTable}

lemma attempt_eq (h : Finds s q o closed s₁) (hmisfit : q.misfit? s.table.newBucket = none) :
    q.attempt s = insert o.key o.add s₁ := by
  rw [Request.attempt_of_offer? h.offer?_eq, if_neg h.key_ne_null, hmisfit]
  simp only [h.rollTo_eq]

/-- A request is crowded out of a table without a slot for its contract. -/
lemma isCrowded_of_tableFull (h : Finds s q o closed s₁) {n : Nat}
    (hclaim : ContractTable.claim o.key s₁.table = .error (.tableFull n) s₁.table) :
    q.isCrowded s = true := by
  by_contra hcrowded
  have hroomy := Bool.eq_false_of_not_eq_true hcrowded
  have hmisfit := Request.misfit?_eq_none hroomy h.offer?_eq h.key_ne_null
  rw [Request.isCrowded, h.attempt_eq hmisfit, insert, ContractTable.insert, hclaim] at hroomy
  cases hroomy

/-- The bucket of its contract decides whether a request is crowded out. -/
lemma isCrowded_eq_false_iff (h : Finds s q o closed s₁)
    (hslot : s₁.table.Assigned o.key i b t) : q.isCrowded s = false ↔ b.HasRoom o.ticks := by
  have hoffers := Request.Offers.of_offer? h.offer?_eq
  have hadd := hoffers.add_eq_ok_iff hslot.within
  constructor
  · intro hroomy
    have hmisfit := Request.misfit?_eq_none hroomy h.offer?_eq h.key_ne_null
    rw [Request.isCrowded, h.attempt_eq hmisfit, insert, hslot.insert_eq] at hroomy
    rcases o.appends b with hok | ⟨c, hfull⟩
    · exact hadd.mp hok
    · rw [hfull] at hroomy
      cases hroomy
  · intro hroom
    have hnew := hroom.empty_claim hslot.layout_eq hslot.capacity_eq o.key
    have hmisfit : q.misfit? s.table.newBucket = none :=
      h.newBucket_eq ▸ hoffers.misfit?_of_hasRoom hnew
    rw [Request.isCrowded, h.attempt_eq hmisfit, insert, hslot.insert_eq, hadd.mpr hroom]

/-- A request with room puts its ticks into the bucket of its contract. -/
lemma call_eq (h : Finds s q o closed s₁) (hslot : s₁.table.Assigned o.key i b t)
    (hroom : b.HasRoom o.ticks) :
    q.call s = .ok closed (stored s₁ t i b o.ticks) := by
  have hoffers := Request.Offers.of_offer? h.offer?_eq
  have hadd := (hoffers.add_eq_ok_iff hslot.within).mpr hroom
  have hmisfit := Request.misfit?_eq_none ((h.isCrowded_eq_false_iff hslot).mpr hroom)
    h.offer?_eq h.key_ne_null
  have hinsert : ContractTable.insert o.key o.add s₁.table =
      .ok () (t.put i (b.pushAll o.ticks)) := by
    rw [hslot.insert_eq, hadd]
  rw [Request.call_of_offer? h.offer?_eq, if_neg h.key_ne_null, hmisfit,
    offer_of_rollTo_ok h.rollTo_eq, store_of_ok hinsert]
  simp only [Option.or_none, stored]

end Finds

/-! ### Legs one by one -/

/-- What each call of a run returns. -/
def answers (s : Rollup) : List Request → List (Except Error (Option Summary))
  | [] => []
  | q :: qs => answerOf (q.call s) :: answers (stateOf (q.call s)) qs

/-- The period of a moment is open. -/
def IsOpenAt (s : Rollup) (timestamp : Timestamp) : Prop :=
  ∃ start, s.timeframe.periodStart? timestamp = some start ∧ s.periodStart = some start

section Legs

variable {timestamp : Timestamp} {i : Nat} {b : Bucket} {t : ContractTable} {r : TickRecord}
variable {rs : List TickRecord}

lemma IsOpenAt.of_rollTo (hs : s.Sound) (hroll : rollTo timestamp s = .ok closed s₁) :
    s₁.IsOpenAt timestamp := by
  have hrolled := Rolled.of_rollTo hs timestamp
  rw [hroll] at hrolled
  cases hrolled with
  | stays hstart hopen => exact ⟨_, hstart, hopen⟩
  | @moves start hstart _ s' _ _ hsettings =>
    have htimeframe : s'.timeframe = s.timeframe := congrArg RollupConfig.timeframe hsettings
    exact ⟨start, htimeframe.symm ▸ hstart, rfl⟩

lemma IsOpenAt.finds (h : s.IsOpenAt r.timestamp) (hkey : key ≠ .null) :
    Finds s (.tick key r) (.single key r) none s := by
  obtain ⟨start, hstart, hopen⟩ := h
  exact ⟨rfl, hkey, rollTo_of_eq hstart hopen, rfl⟩

/--
Ticks of one moment find room one by one just if they find it together. Their contract has all of
them then, and only the first can close a period.
-/
lemma Finds.legs (h : Finds s (.tick key r) (.single key r) closed s₁)
    (hopen : s₁.IsOpenAt r.timestamp) (hslot : s₁.table.Assigned key i b t)
    (hrs : ∀ r' ∈ rs, r'.timestamp = r.timestamp) :
    (Roomy s ((r :: rs).map (.tick key)) ↔ b.HasRoom (r :: rs)) ∧
      (b.HasRoom (r :: rs) →
        stateAfter s ((r :: rs).map (.tick key)) = stored s₁ t i b (r :: rs) ∧
          answers s ((r :: rs).map (.tick key)) = .ok closed :: .replicate rs.length (.ok none)) := by
  have hcrowded : (Request.tick key r).isCrowded s = false ↔ b.HasRoom [r] :=
    h.isCrowded_eq_false_iff hslot
  have hcall (hroom : b.HasRoom [r]) :
      (Request.tick key r).call s = .ok closed (stored s₁ t i b [r]) := h.call_eq hslot hroom
  induction rs generalizing s s₁ closed r b t with
  | nil =>
    refine ⟨(and_iff_left trivial).trans hcrowded, fun hroom => ⟨?_, ?_⟩⟩
    · exact congrArg stateOf (hcall hroom)
    · exact congrArg (fun outcome => [answerOf outcome]) (hcall hroom)
  | cons r' rs ih =>
    obtain ⟨hr', hrest⟩ := List.forall_mem_cons.mp hrs
    by_cases hroom : b.HasRoom [r]
    · -- The other legs find the period open, and their contract in its slot.
      have hopen' : (stored s₁ t i b [r]).IsOpenAt r'.timestamp := hr' ▸ hopen
      have hslot' := hslot.put hroom
      have hfinds' := hopen'.finds h.key_ne_null
      obtain ⟨hiff, hrun⟩ := ih hfinds' hopen' hslot' (hr' ▸ hrest)
        (hfinds'.isCrowded_eq_false_iff hslot') (hfinds'.call_eq hslot')
      have hpush : (b.pushAll [r]).HasRoom (r' :: rs) ↔ b.HasRoom (r :: r' :: rs) :=
        Bucket.hasRoom_push_iff
      rw [hpush] at hiff hrun
      rw [List.map_cons, Roomy, hcall hroom]
      refine ⟨(and_iff_right (hcrowded.mpr hroom)).trans hiff, fun hall => ?_⟩
      obtain ⟨hstate, hanswers⟩ := hrun hall
      constructor
      · rw [stateAfter, List.foldl_cons, hcall hroom]
        exact hstate.trans (stored_append s₁ t i b [r] (r' :: rs))
      · rw [answers, hcall hroom, List.length_cons, List.replicate_succ]
        exact congrArg _ hanswers
    · have hnone : ¬ b.HasRoom (r :: r' :: rs) := mt Bucket.HasRoom.head hroom
      refine ⟨iff_of_false ?_ hnone, fun hall => absurd hall hnone⟩
      rintro ⟨hroomy, -⟩
      exact hroom (hcrowded.mp hroomy)

/-! ### Legs that fail -/

/-- Requests that fail on the same check leave no trace and all fail alike. -/
lemma run_of_error {e : Error} {qs : List Request}
    (h : ∀ q ∈ qs, q.isCrowded s = false ∧ q.call s = .error e s) :
    Roomy s qs ∧ stateAfter s qs = s ∧ answers s qs = .replicate qs.length (.error e) := by
  induction qs with
  | nil => exact ⟨trivial, rfl, rfl⟩
  | cons q qs ih =>
    obtain ⟨⟨hcrowded, hcall⟩, hrest⟩ := List.forall_mem_cons.mp h
    obtain ⟨hroomy, hstate, hanswers⟩ := ih hrest
    refine ⟨⟨hcrowded, ?_⟩, ?_, ?_⟩
    · rwa [hcall]
    · rw [stateAfter, List.foldl_cons, hcall]
      exact hstate
    · rw [answers, hcall, List.length_cons, List.replicate_succ]
      exact congrArg _ hanswers

/-- Moving to the period of a moment fails before it changes anything. -/
lemma rollTo_error (hs : s.Sound) {e : Error} (hroll : rollTo timestamp s = .error e s₁) :
    s₁ = s ∧ e.isCapacity = false := by
  have hrolled := Rolled.of_rollTo hs timestamp
  rw [hroll] at hrolled
  cases hrolled with
  | unalignable | overflowed => exact ⟨rfl, rfl⟩

end Legs

/-! ### Entry points -/

/-- How the calls for the legs of a sandwich one by one compare with the call for all of them. -/
structure AsLegs (s : Rollup) (key : ContractKey) (sandwich : Sandwich) : Prop where
  /-- Legs find room one by one if they find it together. -/
  roomy : (Request.sandwich key sandwich).isCrowded s = false →
    Roomy s (sandwich.records.map (.tick key))
  state_eq : Roomy s (sandwich.records.map (.tick key)) →
    stateAfter s (sandwich.records.map (.tick key)) = stateOf (processSandwich key sandwich s)
  /-- The first leg answers for the sandwich. Legs that fail do so for the same cause as it, unless
  it would not have fitted an empty bucket. -/
  answers_eq : Roomy s (sandwich.records.map (.tick key)) →
    match answerOf (processSandwich key sandwich s) with
    | .ok closed => answers s (sandwich.records.map (.tick key)) =
        .ok closed :: .replicate (sandwich.size - 1) (.ok none)
    | .error e => ∃ e',
        answers s (sandwich.records.map (.tick key)) = .replicate sandwich.size (.error e') ∧
          ((Request.sandwich key sandwich).isCrowded s = false → e' = e)

variable {sandwich : Sandwich}

/-- If all legs fail on the same check, so does the sandwich, unless it would not have fitted. -/
lemma AsLegs.of_error {e e' : Error} (hcall : processSandwich key sandwich s = .error e s)
    (hlegs : ∀ r ∈ sandwich.records,
      (Request.tick key r).isCrowded s = false ∧ process key r s = .error e' s)
    (he : (Request.sandwich key sandwich).isCrowded s = false → e' = e) :
    AsLegs s key sandwich := by
  have hall : ∀ q ∈ sandwich.records.map (Request.tick key),
      q.isCrowded s = false ∧ q.call s = .error e' s := List.forall_mem_map.mpr hlegs
  obtain ⟨hroomy, hstate, hanswers⟩ := run_of_error hall
  rw [List.length_map, sandwich.length_records] at hanswers
  refine ⟨fun _ => hroomy, fun _ => ?_, fun _ => ?_⟩
  · rw [hstate, hcall, stateOf]
  · rw [hcall]
    exact ⟨e', hanswers, he⟩

/-- The first leg finds what the sandwich finds. -/
lemma Finds.exists_leg
    (h : Finds s (.sandwich key sandwich) (.sandwich key sandwich) closed s₁) :
    ∃ r rs, sandwich.records = r :: rs ∧ r.timestamp = sandwich.timestamp ∧
      (∀ r' ∈ rs, r'.timestamp = r.timestamp) ∧
      Finds s (.tick key r) (.single key r) closed s₁ := by
  obtain ⟨r, rs, hrecords⟩ := List.exists_cons_of_ne_nil (Offer.sandwich key sandwich).ticks_ne_nil
  have htimestamps : ∀ r' ∈ r :: rs, r'.timestamp = sandwich.timestamp :=
    hrecords ▸ fun _ => Request.timestamp_of_mem_ticks h.offer?_eq
  obtain ⟨hr, hrs⟩ := List.forall_mem_cons.mp htimestamps
  refine ⟨r, rs, hrecords, hr, hr.symm ▸ hrs, rfl, h.key_ne_null, ?_, h.newBucket_eq⟩
  change rollTo r.timestamp s = _
  rw [hr]
  exact h.rollTo_eq

/-- If there is no slot for the contract, the sandwich finds that out, and so does its first leg. -/
lemma AsLegs.of_tableFull
    (h : Finds s (.sandwich key sandwich) (.sandwich key sandwich) closed s₁) {n : Nat}
    (hclaim : ContractTable.claim key s₁.table = .error (.tableFull n) s₁.table) :
    AsLegs s key sandwich := by
  obtain ⟨r, rs, hrecords, -, -, hfirst⟩ := h.exists_leg
  have hcrowded := h.isCrowded_of_tableFull hclaim
  have hroomy : ¬ Roomy s (sandwich.records.map (.tick key)) := by
    rw [hrecords]
    rintro ⟨hroomy, -⟩
    cases hroomy.symm.trans (hfirst.isCrowded_of_tableFull hclaim)
  refine ⟨fun hroom => ?_, fun hall => absurd hall hroomy, fun hall => absurd hall hroomy⟩
  cases hroom.symm.trans hcrowded

/-- If the contract has a slot, its bucket decides on the sandwich and on its legs alike. -/
lemma AsLegs.of_assigned {i : Nat} {b : Bucket} {t : ContractTable}
    (h : Finds s (.sandwich key sandwich) (.sandwich key sandwich) closed s₁)
    (hopen : s₁.IsOpenAt sandwich.timestamp) (hslot : s₁.table.Assigned key i b t) :
    AsLegs s key sandwich := by
  obtain ⟨r, rs, hrecords, hr, hrs, hfirst⟩ := h.exists_leg
  obtain ⟨hroomy, hrun⟩ := hfirst.legs (hr ▸ hopen) hslot hrs
  have hcrowded := h.isCrowded_eq_false_iff hslot
  have hcall (hroom : b.HasRoom sandwich.records) :
      processSandwich key sandwich s = .ok closed (stored s₁ t i b sandwich.records) :=
    h.call_eq hslot hroom
  have hsize : sandwich.size - 1 = rs.length := by
    rw [← sandwich.length_records, hrecords, List.length_cons, Nat.add_sub_cancel]
  rw [← hrecords] at hroomy hrun
  constructor
  · exact fun hroom => hroomy.mpr (hcrowded.mp hroom)
  · intro hall
    have hroom := hroomy.mp hall
    rw [hcall hroom, (hrun hroom).1, stateOf]
  · intro hall
    have hroom := hroomy.mp hall
    rw [hcall hroom, (hrun hroom).2, hsize]
    rfl

/-- A sandwich is taken in as its legs one by one. -/
lemma AsLegs.of_sound (hs : s.Sound) (h : s.Within) (key : ContractKey) (sandwich : Sandwich) :
    AsLegs s key sandwich := by
  have hcall := processSandwich_eq key sandwich s
  by_cases hkey : key = .null
  · rw [if_pos hkey] at hcall
    refine .of_error hcall (fun r _ => ⟨?_, ?_⟩) fun _ => rfl
    · rw [Request.isCrowded, Request.attempt, attemptTick_eq, if_pos hkey]
      rfl
    · rw [process_eq, if_pos hkey]
  rw [if_neg hkey] at hcall
  cases hroll : rollTo sandwich.timestamp s with
  | error e s₁ =>
    obtain ⟨rfl, he⟩ := rollTo_error hs hroll
    have hlegs : ∀ r ∈ sandwich.records,
        (Request.tick key r).isCrowded s₁ = false ∧ process key r s₁ = .error e s₁ := by
      intro r hr
      have hoffer : (Request.sandwich key sandwich).offer? = some (.sandwich key sandwich) := rfl
      have htimestamp : r.timestamp = sandwich.timestamp :=
        Request.timestamp_of_mem_ticks hoffer hr
      have hroll' := htimestamp ▸ hroll
      constructor
      · rw [Request.isCrowded, Request.attempt, attemptTick_eq, if_neg hkey, hroll']
        exact he
      · rw [process_eq, if_neg hkey]
        exact offer_of_rollTo_error hroll'
    cases hlack : (s₁.table.newBucket.claim key).lackFor? sandwich with
    | some cause =>
      rw [hlack] at hcall
      refine .of_error hcall hlegs fun hcrowded => ?_
      cases hlack.symm.trans (Request.misfit?_eq_none hcrowded rfl hkey)
    | none =>
      rw [hlack] at hcall
      exact .of_error (hcall.trans (offer_of_rollTo_error hroll)) hlegs fun _ => rfl
  | ok closed s₁ =>
    obtain ⟨hs₁, hwithin, hnew⟩ := h.rollTo hs hroll
    have hopen := IsOpenAt.of_rollTo hs hroll
    have hfinds : Finds s (.sandwich key sandwich) (.sandwich key sandwich) closed s₁ :=
      ⟨rfl, hkey, hroll, hnew⟩
    rcases ContractTable.exists_assigned hs₁.table hwithin hkey with hfull | ⟨i, b, t, hslot⟩
    · exact .of_tableFull hfinds hfull
    · exact .of_assigned hfinds hopen hslot

/--
A tick comes to the same as a record, as a raw record and as a sandwich of one leg: in what is
returned, a failure or an overflow included, and in the state it leaves. A sandwich of more legs
comes to what its legs come to one by one, if none of these lacks room.
-/
theorem entry_points_agree (h : s.Reachable) (key : ContractKey) :
    (∀ r : TickRecord, processSandwich key (.single r) s = process key r s ∧
      processRaw ⟨key, r.timestamp, r.category.tag, r.price, r.quantity⟩ s = process key r s) ∧
      ∀ sandwich, AsLegs s key sandwich := by
  refine ⟨fun r => ⟨?_, processRaw_tag key r s⟩, .of_sound h.sound h.within key⟩
  exact processSandwich_single h.sound h.within key r

/-- A wide rollup with a bid of the first minute. -/
def opened : Rollup :=
  stateOf ((Request.tick ⟨1, 0, 0⟩ ContractCandle.earlyBid).call wide)

/-- The first of the legs of another minute closes the minute before, and the others are silent. -/
theorem entry_points_agree_opened :
    opened.Reachable ∧ ∃ summary,
      answerOf (processSandwich ⟨1, 0, 0⟩ Bucket.minuteLegs opened) = .ok (some summary) ∧
      answers opened (Bucket.minuteLegs.records.map (.tick ⟨1, 0, 0⟩)) =
        [.ok (some summary), .ok none, .ok none] ∧
      stateAfter opened (Bucket.minuteLegs.records.map (.tick ⟨1, 0, 0⟩)) =
        stateOf (processSandwich ⟨1, 0, 0⟩ Bucket.minuteLegs opened) := by
  have hwide : ofConfig ⟨⟨2, 8, .perCategory, 7⟩, .minute1, .dropTick⟩ = .ok wide := rfl
  have hreach : opened.Reachable := .call (.fresh hwide) _
  have hlegs := (entry_points_agree hreach ⟨1, 0, 0⟩).2 Bucket.minuteLegs
  have hroomy := hlegs.roomy rfl
  obtain ⟨summary, hsummary⟩ : ∃ summary,
      answerOf (processSandwich ⟨1, 0, 0⟩ Bucket.minuteLegs opened) = .ok (some summary) := ⟨_, rfl⟩
  have hanswers := hlegs.answers_eq hroomy
  rw [hsummary] at hanswers
  exact ⟨hreach, summary, hsummary, hanswers, hlegs.state_eq hroomy⟩

/-- Two trades of a moment that is too late to have a period. -/
def lateLegs : Sandwich where
  timestamp := ⟨10 ^ 10, 125000000, by decide, by decide, by decide⟩
  legs := [Bucket.minuteTrade.leg, Bucket.minuteTrade.leg]
  legs_ne_nil := by simp
  length_legs_le := by simp

/-- Legs without a contract are all refused, not the first one only, and legs without a period are
refused for the room that they would need together only if they come together. -/
theorem failing_legs_answer_each :
    (narrow .reject).Reachable ∧
      (Roomy (narrow .reject) (lateLegs.records.map (.tick .null)) ∧
        answers (narrow .reject) (lateLegs.records.map (.tick .null)) ≠
          answerOf (processSandwich .null lateLegs (narrow .reject)) :: [.ok none]) ∧
      Roomy (narrow .reject) (lateLegs.records.map (.tick ⟨1, 0, 0⟩)) ∧
        answers (narrow .reject) (lateLegs.records.map (.tick ⟨1, 0, 0⟩)) ≠
          answerOf (processSandwich ⟨1, 0, 0⟩ lateLegs (narrow .reject)) :: [.ok none] := by
  refine ⟨.fresh (ofConfig_narrow .reject), ⟨⟨rfl, rfl, trivial⟩, ?_⟩, ⟨rfl, rfl, trivial⟩, ?_⟩
  · intro h
    cases h
  · intro h
    cases h

end Rollup

end Candlestick
