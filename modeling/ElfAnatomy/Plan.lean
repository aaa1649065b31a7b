import ElfAnatomy.Record
import ElfAnatomy.Region
import ElfAnatomy.Stage

/-!
# Plans of reads

What a decoder does next depends on the bytes it has read, but not on how they reach it.  A plan
is this part alone: a tree of questions to a source, with a result or a cause of failure at each
leaf.  A source answers the questions (`Plan.run` in `ElfAnatomy.Source`), so whatever holds of
all plans holds of every decoding run.

* `Plan` : the questions; it is a lawful monad, into which `Except DecodeError` lifts.
* `Plan.length`, `Plan.read`, `Plan.leading`, `Plan.reached` : single questions.
* `Plan.table` : a table of records.
-/

namespace ElfAnatomy

/-- A plan of reads. -/
inductive Plan (α : Type) : Type
  /-- The end, with a result or a cause of failure. -/
  | done (result : Except DecodeError α)
  /-- Asks for the length of the source. -/
  | askLength (next : Nat → Plan α)
  /-- Asks for the bytes of a region. -/
  | fetch (region : Region) (next : Bytes → Plan α)
  /-- Notes that a stage is completed. -/
  | reach (stage : Stage) (next : Plan α)

namespace Plan

variable {α β : Type}

/-- One plan after another. -/
protected def bind : Plan α → (α → Plan β) → Plan β
  | done (.ok a), f => f a
  | done (.error e), _ => done (.error e)
  | askLength next, f => askLength fun n => (next n).bind f
  | fetch region next, f => fetch region fun bs => (next bs).bind f
  | reach stage next, f => reach stage (next.bind f)

instance : Monad Plan where
  pure a := done (.ok a)
  bind := Plan.bind

instance : MonadLift (Except DecodeError) Plan := ⟨done⟩

/-! ### Laws -/

theorem bind_pure (p : Plan α) : p.bind (fun a => done (.ok a)) = p := by
  induction p with
  | done result => cases result <;> rfl
  | askLength next ih => exact congrArg askLength (funext ih)
  | fetch region next ih => exact congrArg (fetch region) (funext ih)
  | reach stage next ih => exact congrArg (reach stage) ih

theorem bind_assoc {γ : Type} (p : Plan α) (f : α → Plan β) (g : β → Plan γ) :
    (p.bind f).bind g = p.bind fun a => (f a).bind g := by
  induction p with
  | done result => cases result <;> rfl
  | askLength next ih => exact congrArg askLength (funext ih)
  | fetch region next ih => exact congrArg (fetch region) (funext ih)
  | reach stage next ih => exact congrArg (reach stage) ih

instance : LawfulMonad Plan := LawfulMonad.mk' Plan
  (fun x => bind_pure x) (fun _ _ => rfl) fun p f g => bind_assoc p f g

@[simp] theorem pure_eq (a : α) : (pure a : Plan α) = done (.ok a) := rfl

@[simp] theorem bind_eq (p : Plan α) (f : α → Plan β) : p >>= f = p.bind f := rfl

@[simp] theorem lift_eq (result : Except DecodeError α) :
    (liftM result : Plan α) = done result := rfl

/-! ### Questions -/

/-- The length of the source. -/
def length : Plan Nat := askLength pure

/-- The bytes of a region. -/
def read (region : Region) : Plan Bytes := fetch region pure

/-- Notes a completed stage. -/
def reached (stage : Stage) : Plan Unit := reach stage (pure ())

/-- The first bytes of the source: `max` of them, or all if there are fewer. -/
def leading (max : Nat) : Plan Bytes := do
  let length ← Plan.length
  read ⟨0, .ofNat (min length max)⟩

/-- The table of `count` records at `offset`, whose entries are declared to have `entrySize` bytes.
The declared size is checked first, and then whether the table lies in the source. -/
def table (α : Type) [Record α] (order : ByteOrder) (offset count entrySize : UInt64) :
    Plan (List α) := do
  require (entrySize.toNat = Record.size α)
    (.layoutMismatch (Record.kind α) (.ofNat (Record.size α)) entrySize)
  let region ← Region.table offset count entrySize (← length)
  let bytes ← read region
  inside (Record.parseAll? order bytes)

end Plan

end ElfAnatomy
