import Candlestick.Proofs.Bucket.Room

/-!
# Changes to a bucket

A bucket that is handed out has ticks and sandwiches added to it, and may be flushed. Whatever
changes it has been through, it is the bucket that its contract claimed with the ticks pushed that
were accepted since the last flush (`Bucket.Change.applyAll_eq_pushAll`). It takes in a sandwich
just if it would take in the legs one by one, and it is as it was if it does not
(`Bucket.addSandwich_atomic`).
-/

namespace Candlestick

/-- The first category that a search in storage order finds. -/
lemma Category.find?_all_eq_some {p : Category → Bool} {c : Category} (h : all.find? p = some c) :
    p c = true ∧ ∀ d : Category, d.index < c.index → p d = false := by
  refine ⟨List.find?_some h, ?_⟩
  intro d hd
  by_contra hp
  cases c <;> cases d <;> simp [all, index, hp] at hd h

namespace Bucket

/-- A change to a bucket that has been handed out. -/
inductive Change
  | add (r : TickRecord)
  | addSandwich (s : Sandwich)
  | flush
deriving DecidableEq

namespace Change

variable {b : Bucket} {change : Change}

/-- The error of an addition that fails, and the bucket that it leaves. -/
def ofAdded : EStateM.Result Error Bucket Unit → Option Error × Bucket
  | .ok () b => (none, b)
  | .error e b => (some e, b)

/-- Makes a change: the error if it fails, and the bucket after it. -/
def apply (b : Bucket) : Change → Option Error × Bucket
  | add r => ofAdded (Bucket.add r b)
  | addSandwich s => ofAdded (Bucket.addSandwich s b)
  | flush => (none, b.flush)

/-- Makes changes one after the other. -/
def applyAll (b : Bucket) : List Change → List (Option Error) × Bucket
  | [] => ([], b)
  | change :: changes =>
    let rest := applyAll (change.apply b).2 changes
    ((change.apply b).1 :: rest.1, rest.2)

/-- The ticks that a change brings. -/
def ticks : Change → List TickRecord
  | add r => [r]
  | addSandwich s => s.records
  | flush => []

/-! ### What a change comes to -/

/-- What a change can come to. -/
inductive Applied (b : Bucket) : Change → Option Error × Bucket → Prop
  | flushed : Applied b flush (none, b.flush)
  | taken {change : Change} (hadds : change ≠ flush) :
      Applied b change (none, b.pushAll change.ticks)
  | refused {change : Change} (hadds : change ≠ flush) (c : Option Category) :
      Applied b change (some (.bucketFull b.key c), b)

lemma Applied.of_ofAdded (change : Change) {add : Call Unit} (h : Appends add change.ticks)
    (hadds : change ≠ flush) (b : Bucket) : Applied b change (ofAdded (add b)) := by
  rcases h b with hok | ⟨c, herr⟩
  · rw [hok]
    exact .taken hadds
  · rw [herr]
    exact .refused hadds c

lemma Applied.of_apply (b : Bucket) (change : Change) : Applied b change (change.apply b) := by
  cases change with
  | add r => exact .of_ofAdded (add r) (appends_add r) nofun b
  | addSandwich s => exact .of_ofAdded (addSandwich s) (appends_addSandwich s) nofun b
  | flush => exact .flushed

/-- What no addition and no flush changes, no change changes. -/
lemma apply_frame {α : Type} {f : Bucket → α} (hpush : ∀ b rs, f (pushAll b rs) = f b)
    (hflush : ∀ b : Bucket, f b.flush = f b) (b : Bucket) (change : Change) :
    f (change.apply b).2 = f b := by
  have happlied := Applied.of_apply b change
  generalize change.apply b = r at happlied
  cases happlied with
  | flushed => exact hflush b
  | taken => exact hpush b change.ticks
  | refused => rfl

lemma applyAll_frame {α : Type} {f : Bucket → α} (hpush : ∀ b rs, f (pushAll b rs) = f b)
    (hflush : ∀ b : Bucket, f b.flush = f b) (b : Bucket) (changes : List Change) :
    f (applyAll b changes).2 = f b := by
  induction changes generalizing b with
  | nil => rfl
  | cons change changes ih => exact (ih _).trans (apply_frame hpush hflush b change)

lemma key_applyAll (b : Bucket) (changes : List Change) : (applyAll b changes).2.key = b.key :=
  applyAll_frame key_pushAll key_flush b changes

lemma layout_applyAll (b : Bucket) (changes : List Change) :
    (applyAll b changes).2.layout = b.layout :=
  applyAll_frame layout_pushAll layout_flush b changes

lemma capacity_applyAll (b : Bucket) (changes : List Change) :
    (applyAll b changes).2.capacity = b.capacity :=
  applyAll_frame capacity_pushAll capacity_flush b changes

lemma applyAll_append (b : Bucket) (changes more : List Change) :
    (applyAll b (changes ++ more)).2 = (applyAll (applyAll b changes).2 more).2 := by
  induction changes generalizing b with
  | nil => rfl
  | cons change changes ih => exact ih _

/-- A change does not put more into a bucket than it has room for. -/
lemma within_apply (h : b.Within) (change : Change) : (change.apply b).2.Within := by
  have hadded {add : Call Unit} {rs : List TickRecord} (happends : Appends add rs)
      (hok : ∀ c, add b = .ok () c → c.Within) : (ofAdded (add b)).2.Within := by
    rcases happends b with hadd | ⟨c, hadd⟩
    · rw [hadd]
      exact hok _ hadd
    · rw [hadd]
      exact h
  cases change with
  | add r => exact hadded (appends_add r) fun _ => h.add
  | addSandwich s => exact hadded (appends_addSandwich s) fun _ => .addSandwich
  | flush => exact within_empty_claim b.layout b.capacity b.key

lemma within_applyAll (h : b.Within) (changes : List Change) :
    (applyAll b changes).2.Within := by
  induction changes generalizing b with
  | nil => exact h
  | cons change changes ih => exact ih (within_apply h change)

/-! ### Accepted ticks -/

/-- The ticks accepted since the last flush once a change has come to its error, if any. -/
def noteAccepted (rs : List TickRecord) : Change × Option Error → List TickRecord
  | (flush, _) => []
  | (change, none) => rs ++ change.ticks
  | (_, some _) => rs

/-- The ticks accepted since the last flush, by the changes and their errors. -/
def accepted (changes : List Change) (errors : List (Option Error)) : List TickRecord :=
  (changes.zip errors).foldl noteAccepted []

/-- A change adds to the ticks accepted, or starts anew. -/
lemma apply_pushAll (layout : Layout) (n : Nat) (key : ContractKey) (rs : List TickRecord)
    (change : Change) :
    (change.apply (((empty layout n).claim key).pushAll rs)).2 =
      ((empty layout n).claim key).pushAll
        (noteAccepted rs (change, (change.apply (((empty layout n).claim key).pushAll rs)).1)) := by
  have happlied := Applied.of_apply (((empty layout n).claim key).pushAll rs) change
  generalize change.apply (((empty layout n).claim key).pushAll rs) = r at happlied
  cases happlied with
  | flushed => exact flush_pushAll_claim layout n key rs
  | taken hadds =>
    cases change with
    | add | addSandwich => exact (pushAll_append _ rs _).symm
    | flush => exact absurd rfl hadds
  | refused hadds =>
    cases change with
    | add | addSandwich => rfl
    | flush => exact absurd rfl hadds

/-- A bucket has the ticks accepted since the last flush, whatever changes it has been through. -/
lemma applyAll_eq_pushAll (layout : Layout) (n : Nat) (key : ContractKey)
    (changes : List Change) :
    (applyAll ((empty layout n).claim key) changes).2 =
      ((empty layout n).claim key).pushAll
        (accepted changes (applyAll ((empty layout n).claim key) changes).1) := by
  -- The changes that follow find a bucket that has accepted some ticks already.
  suffices h : ∀ rs, (applyAll (((empty layout n).claim key).pushAll rs) changes).2 =
      ((empty layout n).claim key).pushAll
        ((changes.zip (applyAll (((empty layout n).claim key).pushAll rs) changes).1).foldl
          noteAccepted rs) from h []
  induction changes with
  | nil =>
    intro rs
    rfl
  | cons change changes ih =>
    intro rs
    rw [applyAll, apply_pushAll]
    exact ih _

end Change

/-! ### Sandwiches -/

/-- Which lack of room keeps a sandwich from joining the ticks `rs` in a bucket. -/
def Lacks (layout : Layout) (n : Nat) (rs : List TickRecord) (s : Sandwich) :
    Option Category → Prop :=
  match layout with
  | .flat => fun lack => lack = none ∧ n < rs.length + s.size
  | .perCategory => fun lack => ∃ c, lack = some c ∧ n < (c.select rs).length + s.count c ∧
      ∀ d : Category, d.index < c.index → (d.select rs).length + s.count d ≤ n

lemma size_array_pushAll_claim (layout : Layout) (n : Nat) (key : ContractKey)
    (rs : List TickRecord) (c : Category) :
    ((((empty layout n).claim key).pushAll rs).storage.array c).size = layout.share c rs := by
  rw [size_array_pushAll]
  cases layout with
  | flat => exact Nat.zero_add _
  | perCategory => cases c <;> exact Nat.zero_add _

/-- A sandwich is refused for the first category in storage order that has no room for its legs. -/
lemma lacks_of_lackFor? {b : Bucket} {rs : List TickRecord} {s : Sandwich} {e : Error}
    (hsize : ∀ c, (b.storage.array c).size = b.layout.share c rs) (h : b.lackFor? s = some e) :
    ∃ lack, e = .bucketFull b.key lack ∧ Lacks b.layout b.capacity rs s lack := by
  rw [lackFor?] at h
  rw [layout] at hsize ⊢
  cases hs : b.storage with
  | flat ticks =>
    simp only [hs] at h hsize
    split_ifs at h with hlt
    rw [show ticks.size = rs.length from hsize .trade] at hlt
    exact ⟨none, (Option.some.inj h).symm, rfl, hlt⟩
  | perCategory ticks =>
    simp only [hs] at h hsize
    obtain ⟨c, hfind, rfl⟩ := Option.map_eq_some_iff.mp h
    obtain ⟨hlt, hbefore⟩ := Category.find?_all_eq_some hfind
    have hcount (d : Category) : (ticks.get d).size = (d.select rs).length := hsize d
    simp only [hcount, decide_eq_true_eq, decide_eq_false_iff_not, Nat.not_lt] at hlt hbefore
    exact ⟨some c, rfl, c, rfl, hlt, hbefore⟩

/--
A bucket takes in a sandwich just if it would take in the legs one by one, and is the same
afterwards. If not, it stays as it is and reports that it lacks room: for the first category in
storage order that has too many ticks with the legs, where each has room of its own.
-/
theorem addSandwich_atomic (layout : Layout) (n : Nat) (key : ContractKey)
    (changes : List Change) (s : Sandwich) :
    let errors := (Change.applyAll ((empty layout n).claim key) changes).1
    let b := (Change.applyAll ((empty layout n).claim key) changes).2
    (∀ b', addSandwich s b = .ok () b' ↔ s.records.forM add b = .ok () b') ∧
      ∀ e b', s.records.forM add b = .error e b' →
        ∃ lack, addSandwich s b = .error (.bucketFull key lack) b ∧
          Lacks layout n (Change.accepted changes errors) s lack := by
  intro errors b
  have hwithin : b.Within := Change.within_applyAll (within_empty_claim layout n key) changes
  have hlayout : b.layout = layout :=
    (Change.layout_applyAll _ changes).trans (layout_empty layout n)
  have hcapacity : b.capacity = n := Change.capacity_applyAll _ changes
  have hkey : b.key = key := Change.key_applyAll _ changes
  have hsize (c : Category) : (b.storage.array c).size =
      b.layout.share c (Change.accepted changes errors) := by
    rw [hlayout, ← size_array_pushAll_claim layout n key]
    exact congrArg (fun b : Bucket => (b.storage.array c).size)
      (Change.applyAll_eq_pushAll layout n key changes)
  refine ⟨fun b' => hwithin.addSandwich_eq_ok_iff_forM, ?_⟩
  intro e b' he
  cases hlack : b.lackFor? s with
  | none =>
    have hroom := lackFor?_eq_none_iff.mp hlack
    cases he.symm.trans (hwithin.forM_add_eq_ok_iff.mpr ⟨hroom, rfl⟩)
  | some e' =>
    obtain ⟨lack, rfl, hlacks⟩ := lacks_of_lackFor? hsize hlack
    rw [hlayout, hcapacity] at hlacks
    rw [hkey] at hlack
    refine ⟨lack, ?_, hlacks⟩
    rw [addSandwich_eq, hlack]

/-- A trade of the second minute of 1970. -/
def minuteTrade : TickRecord where
  timestamp := ⟨90, 500000000, by decide, by decide, by decide⟩
  category := .trade
  price := .zero
  quantity := .zero

/-- A bid and two trades of one moment. -/
def minuteLegs : Sandwich where
  timestamp := minuteTrade.timestamp
  legs := [⟨.bid, .zero, .zero⟩, minuteTrade.leg, minuteTrade.leg]
  legs_ne_nil := by simp
  length_legs_le := by simp

/-- A bucket with a trade has room for a bid and one more trade, but not for two: one by one, the
first two are taken in. -/
theorem addSandwich_atomic_trades :
    let b := (Change.applyAll ((empty .perCategory 2).claim ⟨1, 0, 0⟩) [.add minuteTrade]).2
    (∃ e b', minuteLegs.records.forM add b = .error e b' ∧ b' ≠ b) ∧
      addSandwich minuteLegs b = .error (.bucketFull ⟨1, 0, 0⟩ (some .trade)) b := by
  intro b
  obtain ⟨-, hrefused⟩ :=
    addSandwich_atomic .perCategory 2 ⟨1, 0, 0⟩ [.add minuteTrade] minuteLegs
  have herror : ∃ e b', minuteLegs.records.forM add b = .error e b' ∧ b' ≠ b :=
    ⟨_, _, rfl, by decide⟩
  obtain ⟨e, b', he, hne⟩ := herror
  obtain ⟨lack, hlack, c, rfl, hlt, -⟩ := hrefused e b' he
  refine ⟨⟨e, b', he, hne⟩, hlack.trans ?_⟩
  cases c with
  | trade => rfl
  | bid | ask => exact absurd hlt (by decide)

end Bucket

end Candlestick
