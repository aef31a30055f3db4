/-! Things in line: one joins at the end, and the first one leaves. Either takes
constant time in the long run. A line is its contents: `ext` says that two lines
with the same things in the same order are equal, and the lemmas on `ofList` say
what each operation does to the list of its contents. -/
namespace SegmentPump

/-- A line in two halves, the second with its latest element first, so that both
ends are at hand. -/
structure Halves (α : Type) where
  front : List α
  back : List α
  size : Nat
  sizeExact : size = front.length + back.length

namespace Halves

def toList (h : Halves α) : List α := h.front ++ h.back.reverse

theorem sizeToList (h : Halves α) : h.size = h.toList.length := by
  simp [toList, h.sizeExact]

def ofList (xs : List α) : Halves α :=
  { front := xs, back := [], size := xs.length, sizeExact := rfl }

@[simp] theorem toListOfList (xs : List α) : (ofList xs).toList = xs := by
  simp [ofList, toList]

def push (h : Halves α) (a : α) : Halves α :=
  { front := h.front, back := a :: h.back, size := h.size + 1
    sizeExact := by simp [h.sizeExact, Nat.add_assoc] }

@[simp] theorem toListPush (h : Halves α) (a : α) : (h.push a).toList = h.toList ++ [a] := by
  simp [push, toList]

def pop? (h : Halves α) : Option (α × Halves α) :=
  match exact : h.front with
  | a :: front =>
    some (a, { front, back := h.back, size := h.size - 1
               sizeExact := by simp [h.sizeExact, exact] })
  | [] =>
    match turned : h.back.reverse with
    | [] => none
    | a :: front =>
      some (a, { front, back := [], size := h.size - 1
                 sizeExact := by
                   have := congrArg List.length turned
                   simp [h.sizeExact, exact] at this ⊢
                   omega })

instance setoid (α : Type) : Setoid (Halves α) where
  r g h := g.toList = h.toList
  iseqv := ⟨fun _ => rfl, Eq.symm, Eq.trans⟩

end Halves

def Line (α : Type) := Quotient (Halves.setoid α)

namespace Line

def ofHalves (h : Halves α) : Line α := Quotient.mk _ h

def ofList (xs : List α) : Line α := ofHalves (.ofList xs)

def empty : Line α := ofList []

theorem ofHalvesEq {g h : Halves α} (same : g.toList = h.toList) : ofHalves g = ofHalves h :=
  Quotient.sound same

theorem ofHalvesToList (h : Halves α) : ofHalves h = ofList h.toList :=
  ofHalvesEq (Halves.toListOfList _).symm

def toList : Line α → List α := Quotient.lift Halves.toList fun _ _ same => same

def size : Line α → Nat :=
  Quotient.lift Halves.size fun g h same => by
    rw [g.sizeToList, h.sizeToList, show g.toList = h.toList from same]

def isEmpty (l : Line α) : Bool := l.size == 0

def push (l : Line α) (a : α) : Line α :=
  Quotient.lift (fun h => ofHalves (h.push a))
    (fun g h same => ofHalvesEq (by
      rw [g.toListPush, h.toListPush, show g.toList = h.toList from same])) l

def append (l : Line α) (xs : List α) : Line α := xs.foldl push l

def ofPopped : Option (α × Halves α) → Option (α × Line α)
  | some (a, rest) => some (a, ofHalves rest)
  | none => none

theorem poppedExact (h : Halves α) :
    ofPopped h.pop? =
      match h.toList with
      | [] => none
      | a :: rest => some (a, ofList rest) := by
  obtain ⟨front, back, size, exact⟩ := h
  cases front with
  | cons a front => simp [Halves.pop?, Halves.toList, ofPopped, ofHalvesToList]
  | nil =>
    simp only [Halves.pop?, Halves.toList, List.nil_append]
    split <;> rename_i turned <;> simp [turned, ofPopped, ofHalvesToList, Halves.toList]

def pop? (l : Line α) : Option (α × Line α) :=
  Quotient.lift (fun h => ofPopped h.pop?)
    (fun g h same => by rw [poppedExact, poppedExact, show g.toList = h.toList from same]) l

theorem ext {l m : Line α} (same : l.toList = m.toList) : l = m := by
  induction l using Quotient.ind
  induction m using Quotient.ind
  exact Quotient.sound same

@[simp] theorem toListOfList (xs : List α) : (ofList xs).toList = xs := Halves.toListOfList xs

@[simp] theorem ofListToList (l : Line α) : ofList l.toList = l := ext (by simp)

@[elab_as_elim, cases_eliminator]
theorem listCases {motive : Line α → Prop} (ofList : ∀ xs, motive (ofList xs)) (l : Line α) :
    motive l := by
  rw [← ofListToList l]
  exact ofList _

@[simp] theorem sizeOfList (xs : List α) : (ofList xs).size = xs.length := rfl

theorem sizeToList (l : Line α) : l.size = l.toList.length := by
  cases l
  simp

@[simp] theorem isEmptyOfList (xs : List α) : (ofList xs).isEmpty = xs.isEmpty := by
  cases xs <;> rfl

@[simp] theorem pushOfList (xs : List α) (a : α) : (ofList xs).push a = ofList (xs ++ [a]) :=
  ofHalvesEq (by simp)

@[simp] theorem toListPush (l : Line α) (a : α) : (l.push a).toList = l.toList ++ [a] := by
  cases l
  simp

@[simp] theorem appendOfList (xs ys : List α) : (ofList xs).append ys = ofList (xs ++ ys) := by
  induction ys generalizing xs with
  | nil => simp [append]
  | cons y ys ih => simpa [append] using ih (xs ++ [y])

@[simp] theorem toListAppend (l : Line α) (xs : List α) :
    (l.append xs).toList = l.toList ++ xs := by
  cases l
  simp

@[simp] theorem toListEmpty : (empty : Line α).toList = [] := rfl

@[simp] theorem popNil : (ofList ([] : List α)).pop? = none := rfl

@[simp] theorem popCons (a : α) (xs : List α) : (ofList (a :: xs)).pop? = some (a, ofList xs) :=
  poppedExact (.ofList (a :: xs)) |>.trans (by simp)

instance [DecidableEq α] : DecidableEq (Line α) := fun l m =>
  decidable_of_iff (l.toList = m.toList) ⟨ext, congrArg toList⟩

instance : Inhabited (Line α) := ⟨empty⟩

instance [Repr α] : Repr (Line α) := ⟨fun l prec => reprPrec l.toList prec⟩

end Line
end SegmentPump
