import Candlestick.Json.Text
import Candlestick.Proofs.Json.Token

/-!
# Reading what is written

`Json.ofText?` gives back the value that `Json.text` writes, if its strings have texts and its
numbers are natural (`Json.ofText?_text`): the text of a value is scanned into its tokens, and the
reader puts the value together from them, on whatever stack it is.
-/

namespace Candlestick

namespace Json

open Token (IsDelimited scan?)

mutual

/-- All strings have texts and all numbers are natural. -/
def IsPlain : Json → Prop
  | null | bool _ | natural _ => True
  | number _ => False
  | string s => s.isSome
  | array items => AllPlain items
  | object members => MembersPlain members

def AllPlain : List Json → Prop
  | [] => True
  | item :: items => item.IsPlain ∧ AllPlain items

def MembersPlain : List (Option String × Json) → Prop
  | [] => True
  | (name, value) :: members => name.isSome ∧ value.IsPlain ∧ MembersPlain members

end

lemma membersPlain_iff {members : List (Option String × Json)} :
    MembersPlain members ↔ ∀ entry ∈ members, entry.1.isSome ∧ entry.2.IsPlain := by
  induction members with
  | nil => simp [MembersPlain]
  | cons entry members ih =>
    obtain ⟨name, value⟩ := entry
    rw [MembersPlain, ih, List.forall_mem_cons, and_assoc]

/-! ### Scanning -/

/-- Tokens that are read back if a delimiter follows them. -/
def IsSpelled (ts : List Token) : Prop :=
  ∀ rest, IsDelimited rest →
    scan? (ts.flatMap Token.chars ++ rest) = (scan? rest).map (ts ++ ·)

variable {ts ts' : List Token} {t : Token}

lemma IsSpelled.nil : IsSpelled [] := by
  intro rest _
  simp

/-- A token that may stand before any text goes before tokens. -/
lemma IsSpelled.cons (ht : ∀ rest, t.FollowedBy rest) (h : IsSpelled ts) : IsSpelled (t :: ts) := by
  intro rest hrest
  rw [List.flatMap_cons, List.append_assoc, Token.scan?_chars (ht _), h rest hrest, Option.map_map]
  rfl

/-- Tokens go before others that start with a delimiter. -/
lemma IsSpelled.append_cons (h : IsSpelled ts) (ht : ∀ rest, IsDelimited (t.chars ++ rest))
    (h' : IsSpelled (t :: ts')) : IsSpelled (ts ++ t :: ts') := by
  intro rest hrest
  have hdelimited : IsDelimited ((t :: ts').flatMap Token.chars ++ rest) := by
    rw [List.flatMap_cons, List.append_assoc]
    exact ht _
  rw [List.flatMap_append, List.append_assoc, h _ hdelimited, h' rest hrest, Option.map_map]
  exact congrArg (Option.map · _) (funext fun us => (List.append_assoc ts (t :: ts') us).symm)

lemma IsSpelled.natural (n : Nat) : IsSpelled [.natural n] := by
  intro rest hrest
  have hfollowed : (Token.natural n).FollowedBy rest := hrest
  rw [List.flatMap_singleton, Token.scan?_chars hfollowed]
  rfl

lemma isDelimited_comma (rest : List Char) : IsDelimited (Token.comma.chars ++ rest) := by
  intro c hc
  exact .inl (Option.some.inj hc).symm

lemma isDelimited_closeBracket (rest : List Char) :
    IsDelimited (Token.closeBracket.chars ++ rest) := by
  intro c hc
  exact .inr (.inl (Option.some.inj hc).symm)

lemma isDelimited_closeBrace (rest : List Char) :
    IsDelimited (Token.closeBrace.chars ++ rest) := by
  intro c hc
  exact .inr (.inr (Option.some.inj hc).symm)

mutual

/-- The tokens of a value are read back. -/
lemma isSpelled_tokens (v : Json) (h : v.IsPlain) : IsSpelled v.tokens := by
  match v with
  | null | bool _ => exact .cons (fun _ => trivial) .nil
  | natural n => exact .natural n
  | string (some s) => exact .cons (fun _ => trivial) .nil
  | array items =>
    rw [tokens]
    exact .cons (fun _ => trivial) (isSpelled_items items h)
  | object members =>
    rw [tokens]
    exact .cons (fun _ => trivial) (isSpelled_members members h)

lemma isSpelled_items (items : List Json) (h : AllPlain items) :
    IsSpelled (joinTokens (itemTokens items) ++ [.closeBracket]) := by
  match items with
  | [] => exact .cons (fun _ => trivial) .nil
  | [item] =>
    exact (isSpelled_tokens item h.1).append_cons isDelimited_closeBracket
      (.cons (fun _ => trivial) .nil)
  | item :: next :: items =>
    rw [itemTokens, itemTokens, joinTokens, List.append_assoc]
    · exact (isSpelled_tokens item h.1).append_cons isDelimited_comma
        (.cons (fun _ => trivial) (isSpelled_items (next :: items) h.2))
    · exact List.cons_ne_nil _ _

lemma isSpelled_members (members : List (Option String × Json)) (h : MembersPlain members) :
    IsSpelled (joinTokens (memberTokens members) ++ [.closeBrace]) := by
  match members with
  | [] => exact .cons (fun _ => trivial) .nil
  | [(some name, value)] =>
    exact .cons (fun _ => trivial) (.cons (fun _ => trivial)
      ((isSpelled_tokens value h.2.1).append_cons isDelimited_closeBrace
        (.cons (fun _ => trivial) .nil)))
  | (some name, value) :: (name', value') :: members =>
    rw [memberTokens, memberTokens, joinTokens, List.append_assoc]
    · exact .cons (fun _ => trivial) (.cons (fun _ => trivial)
        ((isSpelled_tokens value h.2.1).append_cons isDelimited_comma
          (.cons (fun _ => trivial) (isSpelled_members ((name', value') :: members) h.2.2))))
    · exact List.cons_ne_nil _ _

end

/-! ### Reading -/

/-- Tokens lead a reader on. -/
def Leads (ts : List Token) (r r' : Reader) : Prop :=
  ts.foldlM Reader.step? r = some r'

variable {r r' r'' : Reader} {stack : Stack}

lemma Leads.nil (r : Reader) : Leads [] r r := rfl

lemma Leads.cons (h : r.step? t = some r') (hts : Leads ts r' r'') : Leads (t :: ts) r r'' := by
  rw [Leads, List.foldlM_cons, h]
  exact hts

lemma Leads.append (hts : Leads ts r r') (hts' : Leads ts' r' r'') : Leads (ts ++ ts') r r'' := by
  rw [Leads, List.foldlM_append, show ts.foldlM Reader.step? r = some r' from hts]
  exact hts'

lemma exists_joinTokens_cons (ts : List Token) (rest : List (List Token)) :
    ∃ us, joinTokens (ts :: rest) = ts ++ us := by
  cases rest with
  | nil => exact ⟨[], (List.append_nil ts).symm⟩
  | cons ts' rest => exact ⟨_, rfl⟩

/-- The first item of an array is read like any value. -/
lemma Leads.firstItem {items : List Json} (hne : items ≠ [])
    (h : Leads (joinTokens (itemTokens items) ++ ts) (.value (.array [] :: stack)) r) :
    Leads (joinTokens (itemTokens items) ++ ts) (.firstItem stack) r := by
  cases items with
  | nil => exact absurd rfl hne
  | cons item items =>
    obtain ⟨us, hus⟩ := exists_joinTokens_cons item.tokens (itemTokens items)
    rw [itemTokens, hus] at h ⊢
    cases item <;> exact h

/-- The first name of an object is read like any name. -/
lemma Leads.firstName {members : List (Option String × Json)} (hne : members ≠ [])
    (h : Leads (joinTokens (memberTokens members) ++ ts) (.nextName [] stack) r) :
    Leads (joinTokens (memberTokens members) ++ ts) (.firstName stack) r := by
  cases members with
  | nil => exact absurd rfl hne
  | cons entry members =>
    obtain ⟨name, value⟩ := entry
    obtain ⟨us, hus⟩ :=
      exists_joinTokens_cons (.string name :: .colon :: value.tokens) (memberTokens members)
    rw [memberTokens, hus] at h ⊢
    exact h

mutual

/-- The tokens of a value lead to it. -/
lemma leads_tokens (v : Json) (stack : Stack) : Leads v.tokens (.value stack) (.after v stack) := by
  match v with
  | null | bool _ | natural _ | number _ | string _ => exact .cons rfl (.nil _)
  | array items =>
    rw [tokens]
    by_cases hne : items = []
    · subst hne
      exact .cons rfl (.cons rfl (.nil _))
    · exact .cons rfl (.firstItem hne (leads_items items hne [] stack))
  | object members =>
    rw [tokens]
    by_cases hne : members = []
    · subst hne
      exact .cons rfl (.cons rfl (.nil _))
    · exact .cons rfl (.firstName hne (leads_members members hne [] stack))

/-- Items are put after those that have been read. -/
lemma leads_items (items : List Json) (hne : items ≠ []) (before : List Json) (stack : Stack) :
    Leads (joinTokens (itemTokens items) ++ [.closeBracket])
      (.value (.array before :: stack)) (.after (.array (before.reverse ++ items)) stack) := by
  match items with
  | [] => exact absurd rfl hne
  | [item] =>
    refine (leads_tokens item _).append (.cons ?_ (.nil _))
    rw [Reader.step?, List.reverse_cons]
  | item :: next :: items =>
    rw [itemTokens, itemTokens, joinTokens, List.append_assoc]
    · refine (leads_tokens item _).append (.cons rfl ?_)
      have hrest := leads_items (next :: items) (List.cons_ne_nil _ _) (item :: before) stack
      rwa [List.reverse_cons, List.append_assoc, List.singleton_append] at hrest
    · exact List.cons_ne_nil _ _

lemma leads_members (members : List (Option String × Json)) (hne : members ≠ [])
    (before : List (Option String × Json)) (stack : Stack) :
    Leads (joinTokens (memberTokens members) ++ [.closeBrace])
      (.nextName before stack) (.after (.object (before.reverse ++ members)) stack) := by
  match members with
  | [] => exact absurd rfl hne
  | [(name, value)] =>
    refine .cons rfl (.cons rfl ((leads_tokens value _).append (.cons ?_ (.nil _))))
    rw [Reader.step?, List.reverse_cons]
  | (name, value) :: (name', value') :: members =>
    rw [memberTokens, memberTokens, joinTokens, List.append_assoc]
    · refine .cons rfl (.cons rfl ((leads_tokens value _).append (.cons rfl ?_)))
      have hrest := leads_members ((name', value') :: members) (List.cons_ne_nil _ _)
        ((name, value) :: before) stack
      rwa [List.reverse_cons, List.append_assoc, List.singleton_append] at hrest
    · exact List.cons_ne_nil _ _

end

/-- A plain value is read back from its text. -/
theorem ofText?_text {v : Json} (h : v.IsPlain) : ofText? v.text = some v := by
  have hscan : scan? v.chars = some v.tokens := by
    -- The end of the text delimits its last token.
    have hspelled := isSpelled_tokens v h [] (fun _ hc => by cases hc)
    rw [List.append_nil, Token.scan?, Option.map_some, List.append_nil] at hspelled
    exact hspelled
  have hleads : v.tokens.foldlM Reader.step? (.value []) = some (.after v []) := leads_tokens v []
  rw [ofText?, text, String.toList_ofList, ofChars?, hscan, Option.bind_some, ofTokens?, hleads]

end Json

end Candlestick
