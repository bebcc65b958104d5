import Candlestick.Codec.Tick
import Mathlib.Data.List.Duplicate
import Mathlib.Tactic.Common

/-!
# Members of an object

Which fields an object gives, and what is read for each of them: the value of the member if there
is one, else the default. An object that repeats a member or has one of another name is refused by
settings.
-/

namespace Candlestick.Json

variable {members : List (Option String × Json)} {names : List String} {name : String}
variable {value : Json}

/-- A member is repeated, or it has another name than the fields. -/
def IsMisnamed (names : List String) (members : List (Option String × Json)) : Prop :=
  ¬ (members.map Prod.fst).Nodup ∨ ∃ entry ∈ members, ∀ name ∈ names, entry.1 ≠ some name

/-- A value names a choice: as a string, or as an object that gives it null. -/
def Names (v : Json) (name : String) : Prop :=
  v = .string name ∨ v = .object [(some name, .null)]

/-- The value of a field if it is given, else the default. -/
def fieldOr {α : Type} (members : List (Option String × Json)) (name : String) (x usual : α) : α :=
  if some name ∈ members.map Prod.fst then x else usual

lemma word?_natural (n : UInt32) : (natural n.toNat).word? = some n := by
  rw [word?, natBelow?, if_pos n.toNat_lt, Option.map_some, UInt32.ofNat_toNat]

lemma longWord?_natural (n : UInt64) : (natural n.toNat).longWord? = some n := by
  rw [longWord?, natBelow?, if_pos n.toNat_lt, Option.map_some, UInt64.ofNat_toNat]

lemma choice?_of_names {α : Type} {ofName? : String → Option α} {v : Json} (h : v.Names name) :
    v.choice? ofName? = ofName? name := by
  rcases h with rfl | rfl <;> rfl

lemma not_isMisnamed (hnames : names.Nodup) (h : members.map Prod.fst = names.map some) :
    ¬ IsMisnamed names members := by
  rintro (hrepeated | ⟨entry, hentry, hunknown⟩)
  · exact hrepeated (h ▸ hnames.map fun _ _ => Option.some.inj)
  · obtain ⟨name, hname, heq⟩ := List.mem_map.mp (h ▸ List.mem_map_of_mem (f := Prod.fst) hentry)
    exact hunknown name hname heq.symm

lemma nodup_of_not_isMisnamed (h : ¬ IsMisnamed names members) : (members.map Prod.fst).Nodup := by
  by_contra hrepeated
  exact h (.inl hrepeated)

lemma exists_name_of_not_isMisnamed (h : ¬ IsMisnamed names members) {entry : Option String × Json}
    (hentry : entry ∈ members) : ∃ name ∈ names, entry.1 = some name := by
  by_contra hunknown
  exact h (.inr ⟨entry, hentry, fun name hname heq => hunknown ⟨name, hname, heq⟩⟩)

lemma filter_eq_nil (h : some name ∉ members.map Prod.fst) :
    members.filter (·.1 == some name) = [] := by
  rw [List.filter_eq_nil_iff]
  intro entry hentry hname
  exact h (List.mem_map.mpr ⟨entry, hentry, beq_iff_eq.mp hname⟩)

lemma member?_of_notMem (h : some name ∉ members.map Prod.fst) :
    member? members name = some none := by
  rw [member?, filter_eq_nil h]

lemma filter_eq_singleton (hnodup : (members.map Prod.fst).Nodup)
    (h : (some name, value) ∈ members) :
    members.filter (·.1 == some name) = [(some name, value)] := by
  induction members with
  | nil => cases h
  | cons entry members ih =>
    rw [List.map_cons, List.nodup_cons] at hnodup
    rcases List.mem_cons.mp h with rfl | h
    · rw [List.filter_cons_of_pos (by simp), filter_eq_nil hnodup.1]
    · have hne : entry.1 ≠ some name := fun heq =>
        hnodup.1 (heq ▸ List.mem_map_of_mem (f := Prod.fst) h)
      rw [List.filter_cons_of_neg (by simpa using hne), ih hnodup.2 h]

lemma member?_of_mem (hnodup : (members.map Prod.fst).Nodup) (h : (some name, value) ∈ members) :
    member? members name = some (some value) := by
  rw [member?, filter_eq_singleton hnodup h]

/-- What is read for a field, if its member may be read. -/
lemma exists_member? {α : Type} (read? : Json → Option α) {x : α} (usual : α)
    (hnodup : (members.map Prod.fst).Nodup)
    (h : ∀ v, (some name, v) ∈ members → read? v = some x) :
    ∃ v?, member? members name = some v? ∧
      orDefault? read? usual v? = some (fieldOr members name x usual) := by
  by_cases hgiven : some name ∈ members.map Prod.fst
  · obtain ⟨⟨_, v⟩, hentry, rfl⟩ := List.mem_map.mp hgiven
    refine ⟨some v, member?_of_mem hnodup hentry, ?_⟩
    rw [orDefault?, fieldOr, if_pos hgiven, h v hentry]
  · refine ⟨none, member?_of_notMem hgiven, ?_⟩
    rw [orDefault?, fieldOr, if_neg hgiven]

/-! ### Members that settings refuse -/

lemma mapM_eq_none {α β : Type} {f : α → Option β} {a : α} {as : List α} (ha : a ∈ as)
    (h : f a = none) : as.mapM f = none := by
  induction as with
  | nil => cases ha
  | cons b as ih =>
    rw [List.mapM_cons]
    rcases List.mem_cons.mp ha with rfl | ha
    · rw [h]
      rfl
    · rw [ih ha]
      cases f b <;> rfl

lemma member?_eq_none (h : List.Duplicate (some name) (members.map Prod.fst)) :
    member? members name = none := by
  have hlength : 2 ≤ (members.filter (·.1 == some name)).length := by
    have hsublist := (List.duplicate_iff_sublist.mp h).filter (· == some name)
    have hle := hsublist.length_le
    rw [List.filter_map, List.length_map] at hle
    exact Nat.le_trans (by simp) hle
  unfold member?
  split
  · next heq => simp [heq] at hlength
  · next heq => simp [heq] at hlength
  · rfl

lemma settingFields?_of_isMisnamed (h : IsMisnamed names members) :
    settingFields? names (.object members) = none := by
  rw [settingFields?]
  split_ifs with hknown
  · rw [List.all_eq_true] at hknown
    rcases h with hrepeated | ⟨entry, hentry, hunknown⟩
    · obtain ⟨name?, hduplicate⟩ := List.exists_duplicate_iff_not_nodup.mpr hrepeated
      obtain ⟨entry, hentry, rfl⟩ := List.mem_map.mp hduplicate.mem
      obtain ⟨name, hname, hmem⟩ := (Option.any_eq_true _ _).mp (hknown entry hentry)
      rw [hname] at hduplicate
      exact mapM_eq_none (List.contains_iff_mem.mp hmem) (member?_eq_none hduplicate)
    · obtain ⟨name, hname, hmem⟩ := (Option.any_eq_true _ _).mp (hknown entry hentry)
      exact absurd hname (hunknown name (List.contains_iff_mem.mp hmem))
  · rfl

lemma settingFields?_of_not_isMisnamed (h : ¬ IsMisnamed names members) :
    settingFields? names (.object members) = names.mapM (member? members) := by
  rw [settingFields?, if_pos]
  rw [List.all_eq_true]
  intro entry hentry
  obtain ⟨name, hmem, hname⟩ := exists_name_of_not_isMisnamed h hentry
  rw [hname, Option.any_some]
  exact List.contains_iff_mem.mpr hmem

end Candlestick.Json
