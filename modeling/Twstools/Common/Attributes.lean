import Mathlib.Logic.Basic
/-!
# Attributes with defaults

A record is written as a list of attributes, each a name and a text. An
attribute whose value is the default may be left out, and the reader takes
the default for one that is missing. `read_written` says when a value comes
back: when its text reads back as the value. `NamedWithin` says which names a list
of fields can have at all.
-/

namespace Twstools

variable {α : Type} [DecidableEq α] {skip : Bool} {name : String} {x d : α}
variable {print : α → String} {read : String → α}

/-- The text that is written for a value, if any. -/
def written (skip : Bool) (print : α → String) (x d : α) : Option String :=
  if !skip || x ≠ d then some (print x) else none

/-- One attribute, or none. -/
def newAttr (skip : Bool) (print : α → String) (name : String) (x d : α) :
    List (String × String) :=
  ((written skip print x d).map fun v => (name, v)).toList

/-- An attribute is found under its own name only. -/
theorem lookup_newAttr {a : String} :
    (newAttr skip print name x d).lookup a =
      if a = name then written skip print x d else none := by
  unfold newAttr
  cases written skip print x d with
  | none => simp
  | some v =>
      by_cases h : a = name
      · simp [h]
      · simp [h]

/-- Every field is written where defaults are. -/
theorem names_newAttr : (newAttr false print name x d).map Prod.fst = [name] := by
  simp [newAttr, written]

/-- **Attributes with no other names** than those of `bs`. -/
def NamedWithin (attrs bs : List (String × String)) : Prop :=
  ∀ n ∉ bs.map Prod.fst, attrs.lookup n = none

namespace NamedWithin

variable {attrs attrs' bs bs' : List (String × String)}

theorem append (h : NamedWithin attrs bs) (h' : NamedWithin attrs' bs') :
    NamedWithin (attrs ++ attrs') (bs ++ bs') := by
  intro n hn
  rw [List.map_append, List.mem_append, not_or] at hn
  rw [List.lookup_append, h n hn.1, h' n hn.2, Option.or_none]

/-- A field has its name whatever its value is. -/
theorem field {y e : α} :
    NamedWithin (newAttr skip print name x d) (newAttr false print name y e) := by
  intro n hn
  rw [names_newAttr, List.mem_singleton] at hn
  rw [lookup_newAttr, if_neg hn]

end NamedWithin

/-- A value whose text reads back comes back. -/
theorem read_written_of (h : read (print x) = x) :
    (written skip print x d).elim d read = x := by
  unfold written
  split
  · exact h
  · rename_i hs
    have hx : skip = true ∧ x = d := by simpa using hs
    exact hx.2.symm

/-- **A value comes back exactly when its text reads back.** -/
theorem read_written (hd : read (print d) = d) :
    (written skip print x d).elim d read = x ↔ read (print x) = x := by
  refine ⟨fun h => ?_, read_written_of⟩
  unfold written at h
  split at h
  · exact h
  · rename_i hs
    have hx : skip = true ∧ x = d := by simpa using hs
    rw [hx.2]
    exact hd

/-- A list is kept when each of its elements is. -/
theorem map_eq_self_iff {β : Type} {f : β → β} {l : List β} :
    l.map f = l ↔ ∀ b ∈ l, f b = b := by
  induction l with
  | nil => simp
  | cons b l ih => simp [ih]

end Twstools
