import Candlestick.Proofs.Table.Active
import Candlestick.Rollup

/-!
# Offering ticks to a table

An offer is a tick, or the legs of a sandwich, that a contract wants taken in together. A table
with room for the offer takes it in, in the bucket of its contract; a table without room for it
stays as it is (`Inserted.of_insert`).
-/

namespace Candlestick

/-- Ticks of one contract and one moment, and how they are added to its bucket. -/
structure Offer where
  key : ContractKey
  timestamp : Timestamp
  ticks : List TickRecord
  add : Bucket.Call Unit
  appends : Bucket.Appends add ticks
  ticks_ne_nil : ticks ≠ []

namespace Offer

def single (key : ContractKey) (r : TickRecord) : Offer where
  key
  timestamp := r.timestamp
  ticks := [r]
  add := Bucket.add r
  appends := Bucket.appends_add r
  ticks_ne_nil := by simp

def sandwich (key : ContractKey) (s : Sandwich) : Offer where
  key
  timestamp := s.timestamp
  ticks := s.records
  add := Bucket.addSandwich s
  appends := Bucket.appends_addSandwich s
  ticks_ne_nil := by
    rw [← List.length_pos_iff, s.length_records]
    exact s.size_pos

/-- A bucket without ticks has room for the offer. -/
def Fits (o : Offer) (new : Bucket) : Prop :=
  o.add (new.claim o.key) = .ok () ((new.claim o.key).pushAll o.ticks)

end Offer

namespace Roster

/-- The contracts once an offer is taken in, whether or not there is room for it. -/
def take (m : Roster) (new : Bucket) (key : ContractKey) (rs : List TickRecord) : Roster :=
  match m.lookup key with
  | some b => m.set key (b.pushAll rs)
  | none => m ++ [(key, (new.claim key).pushAll rs)]

lemma lookup_set {m : Roster} {key : ContractKey} {b : Bucket} (h : m.lookup key = some b)
    (c : Bucket) : (m.set key c).lookup key = some c := by
  induction m with
  | nil => cases h
  | cons entry m ih =>
    obtain ⟨k, d⟩ := entry
    rw [set, List.map_cons]
    by_cases hkey : k = key
    · simp [hkey]
    · have hne : (key == k) = false := beq_eq_false_iff_ne.mpr (Ne.symm hkey)
      rw [List.lookup_cons, hne] at h
      rw [if_neg hkey, List.lookup_cons, hne]
      exact ih h

lemma lookup_take (new : Bucket) (m : Roster) (key : ContractKey) (rs : List TickRecord) :
    (m.take new key rs).lookup key = some (((m.lookup key).getD (new.claim key)).pushAll rs) := by
  rw [take]
  cases h : m.lookup key with
  | some b => exact lookup_set h _
  | none => simp [List.lookup_append, h]

/-- Why a roster with room for `capacity` contracts cannot take in an offer. -/
def refusal? (capacity : Nat) (m : Roster) (o : Offer) : Option Error :=
  match m.lookup o.key with
  | some b =>
    match o.add b with
    | .ok () _ => none
    | .error e _ => some e
  | none => if m.length < capacity then none else some (.tableFull capacity)

end Roster

namespace ContractTable

variable {t : ContractTable} {o : Offer}

/-- A table once an offer is taken in. -/
structure Taken (t : ContractTable) (o : Offer) (t' : ContractTable) : Prop where
  wellFormed : t'.WellFormed
  config_eq : t'.config = t.config
  active_eq : t'.active = Roster.take t.active t.newBucket o.key o.ticks

lemma Taken.find? {t' : ContractTable} (h : t.Taken o t') (ht : t.WellFormed) :
    t'.find? o.key =
      some (((t.find? o.key).getD (t.newBucket.claim o.key)).pushAll o.ticks) := by
  rw [h.wellFormed.find?_eq_lookup, h.active_eq, ht.find?_eq_lookup]
  exact Roster.lookup_take t.newBucket t.active o.key o.ticks

/-- What inserting an offer into a table can come to. -/
inductive Inserted (t : ContractTable) (o : Offer) : EStateM.Result Error ContractTable Unit → Prop
  | taken {t' : ContractTable} (hroom : Roster.refusal? t.capacity t.active o = none)
      (htaken : t.Taken o t') : Inserted t o (.ok () t')
  | refused {e : Error} (hroom : Roster.refusal? t.capacity t.active o = some e)
      (hcapacity : e.isCapacity) (hsome : t.active ≠ []) : Inserted t o (.error e t)

/-- A table takes in an offer that fits a bucket without ticks, or stays as it is. -/
lemma Inserted.of_insert (h : t.WellFormed) (hkey : o.key ≠ .null) (hfit : o.Fits t.newBucket) :
    Inserted t o (insert o.key o.add t) := by
  unfold insert
  have hgranted := Granted.of_claim h o.key
  generalize claim o.key t = r at hgranted
  cases hgranted with
  | null hnull => exact absurd hnull hkey
  | @known i b hkey howned hlookup =>
    rcases o.appends b with hadd | ⟨c, hadd⟩
    · have hput : (t.put i (b.pushAll o.ticks)).WellFormed :=
        h.put howned (Bucket.key_pushAll b _) (Bucket.layout_pushAll b _)
          (Bucket.capacity_pushAll b _)
      simp only [hadd]
      refine .taken ?_ ⟨hput, rfl, ?_⟩
      · simp only [Roster.refusal?, hlookup, hadd]
      · rw [h.active_put hput.toPlaced howned (Bucket.key_pushAll b _), Roster.take, hlookup, hkey]
    · simp only [hadd, put_of_bucket? (owned?_eq_some_iff.mp howned).1]
      refine .refused ?_ rfl ?_
      · simp only [Roster.refusal?, hlookup, hadd]
      · intro hnil
        rw [hnil] at hlookup
        cases hlookup
  | @new i hkey hlookup hroom hwell howned hactive =>
    have hput := hwell.put howned (Bucket.key_pushAll _ o.ticks) (Bucket.layout_pushAll _ _)
      (Bucket.capacity_pushAll _ _)
    simp only [show o.add (t.newBucket.claim o.key) = _ from hfit]
    refine .taken ?_ ⟨hput, rfl, ?_⟩
    · rw [Roster.refusal?, hlookup]
      exact if_pos hroom
    · rw [hwell.active_put hput.toPlaced howned (Bucket.key_pushAll _ _), hactive, Roster.take,
        hlookup]
      exact Roster.set_append hlookup _ _
  | full hkey hlookup hlength =>
    refine .refused ?_ rfl ?_
    · rw [Roster.refusal?, hlookup, hlength]
      exact if_neg (Nat.lt_irrefl _)
    · intro hnil
      rw [hnil] at hlength
      exact absurd hlength (Nat.ne_of_lt h.capacity_pos)

/-- An offer that fits a bucket without ticks is never refused by a table without contracts. -/
lemma exists_insert_of_active_eq_nil (h : t.WellFormed) (hnil : t.active = [])
    (hkey : o.key ≠ .null) (hfit : o.Fits t.newBucket) :
    ∃ t', insert o.key o.add t = .ok () t' ∧ t.Taken o t' := by
  have hinserted := Inserted.of_insert h hkey hfit
  generalize insert o.key o.add t = r at hinserted
  cases hinserted with
  | taken _ htaken => exact ⟨_, rfl, htaken⟩
  | refused _ _ hsome => exact absurd hnil hsome

end ContractTable

end Candlestick
