/-!
# Tick categories

A tick is a bid quote, an ask quote or a trade. `ByCategory` keeps one value for each.
-/

namespace Candlestick

/-- What a tick reports. -/
inductive Category
  | bid
  | ask
  | trade
deriving DecidableEq, Repr

namespace Category

def all : List Category := [bid, ask, trade]

/-- The position of a category in storage order. -/
def index : Category → Nat
  | bid => 0
  | ask => 1
  | trade => 2

/-- The number of a category in a raw record. -/
def tag (c : Category) : UInt8 :=
  .ofNat c.index

def ofTag? (tag : UInt8) : Option Category :=
  all.find? (·.tag == tag)

def name : Category → String
  | bid => "bid"
  | ask => "ask"
  | trade => "trade"

def ofName? (name : String) : Option Category :=
  all.find? (·.name == name)

instance : ToString Category := ⟨name⟩

theorem mem_all (c : Category) : c ∈ all := by
  cases c <;> simp [all]

@[simp] theorem ofTag?_tag (c : Category) : ofTag? c.tag = some c := by
  cases c <;> decide

@[simp] theorem ofName?_name (c : Category) : ofName? c.name = some c := by
  cases c <;> decide

end Category

/-- One value for each category. -/
structure ByCategory (α : Type) where
  bid : α
  ask : α
  trade : α
deriving DecidableEq, Repr

namespace ByCategory

variable {α : Type}

def fill (a : α) : ByCategory α := ⟨a, a, a⟩

def get (v : ByCategory α) : Category → α
  | .bid => v.bid
  | .ask => v.ask
  | .trade => v.trade

/-- Changes the value of one category. -/
def modify (v : ByCategory α) (f : α → α) : Category → ByCategory α
  | .bid => { v with bid := f v.bid }
  | .ask => { v with ask := f v.ask }
  | .trade => { v with trade := f v.trade }

def toList (v : ByCategory α) : List α := [v.bid, v.ask, v.trade]

@[simp] theorem get_fill (a : α) (c : Category) : (fill a).get c = a := by
  cases c <;> rfl

theorem get_modify (v : ByCategory α) (f : α → α) (c d : Category) :
    (v.modify f c).get d = if c = d then f (v.get d) else v.get d := by
  cases c <;> cases d <;> simp [get, modify]

@[ext] theorem ext_get {v w : ByCategory α} (h : ∀ c, v.get c = w.get c) : v = w := by
  cases v
  cases w
  have hb := h .bid
  have ha := h .ask
  have ht := h .trade
  simp_all [get]

end ByCategory

end Candlestick
