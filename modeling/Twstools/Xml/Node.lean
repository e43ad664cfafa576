import Twstools.Clib.Double
import Twstools.Common.Attributes
/-!
# Nodes of an xml document

A node is an element with its attributes and children, or something else,
which the readers pass over. The macros of `tws_xml.h` write one field as
an attribute, unless it has its default and defaults are skipped, and read
one field back, which keeps its value when there is no such attribute.
-/

namespace Twstools

/-- `xmlNodePtr`, as far as the program looks at it. -/
inductive XmlNode where
  | element (name : String) (attrs : List (String × String)) (children : List XmlNode)
  /-- Text, comments and the like. -/
  | other

namespace XmlNode

/-- Whether it is an element with this name. -/
def is (node : XmlNode) (name : String) : Bool :=
  match node with
  | element n _ _ => n = name
  | other => false

/-- `type == XML_ELEMENT_NODE`. -/
def isElement : XmlNode → Bool
  | element _ _ _ => true
  | other => false

/-- `children`, followed through `next`. -/
def children : XmlNode → List XmlNode
  | element _ _ cs => cs
  | other => []

/-- `xmlGetProp`. -/
def prop (node : XmlNode) (name : String) : Option String :=
  match node with
  | element _ attrs _ => attrs.lookup name
  | other => none

/-- An element has one name. -/
theorem is_ne {node : XmlNode} {name name' : String} (h : node.is name = true)
    (hne : name ≠ name') : node.is name' = false := by
  cases node with
  | element n _ _ =>
      obtain rfl : n = name := by simpa [is] using h
      simpa [is] using hne
  | other => rfl

/-- Every attribute, of the node and of what is below it, has the property. -/
inductive All (P : String → String → Prop) : XmlNode → Prop
  | element {name : String} {attrs : List (String × String)} {children : List XmlNode} :
      (∀ a v, (a, v) ∈ attrs → P a v) → (∀ c ∈ children, c.All P) →
      All P (.element name attrs children)
  | other : All P .other

namespace All

variable {P Q : String → String → Prop} {node : XmlNode} {name v : String}

theorem child (h : node.All P) : ∀ c ∈ node.children, c.All P := by
  rcases h with ⟨-, hc⟩ | -
  · exact hc
  · exact fun c hc => absurd hc List.not_mem_nil

theorem prop_eq (h : node.All P) (hv : node.prop name = some v) : P name v := by
  rcases h with ⟨ha, -⟩ | -
  · obtain ⟨l₁, l₂, hl, -⟩ := List.lookup_eq_some_iff.1 hv
    exact ha name v (by rw [hl]; simp)
  · cases hv

end All

end XmlNode

/-- `xmlDocPtr`, as far as the program looks at it. -/
structure XmlDoc where
  children : List XmlNode

/-- `xmlDocGetRootElement`: the first child that is an element. -/
def XmlDoc.getRootElement (doc : XmlDoc) : Option XmlNode := doc.children.find? (·.isElement)

/-! ## Strings -/

/-- `std::string(s.c_str())`: what is before the first NUL. -/
def c_str (s : String) : String := String.ofList (s.toList.takeWhile (·.toNat ≠ 0))

/-- A string a C string can be. -/
def CString (s : String) : Prop := c_str s = s

theorem CString.iff_forall {s : String} : CString s ↔ ∀ c ∈ s.toList, c.toNat ≠ 0 := by
  rw [CString, c_str, ← String.toList_inj, String.toList_ofList, List.takeWhile_eq_self_iff]
  simp

instance (s : String) : Decidable (CString s) := inferInstanceAs (Decidable (_ = _))

/-- `"%d"` and `atoi`, for a number that need not be an `int`. -/
theorem atoi_toString_iff {x : ℤ} : atoi (toString x) = x ↔ InInt x := by
  refine ⟨fun h => ?_, atoi_toString⟩
  rw [← h]
  exact inInt_toInt _

/-! ## Writing a field -/

section Write

variable (skip : Bool) (name : String)

/-- `ADD_ATTR_INT`. -/
def addAttrInt (x dflt : ℤ) := newAttr skip toString name x dflt

/-- `ADD_ATTR_LONG`. -/
def addAttrLong (x dflt : ℤ) := newAttr skip toString name x dflt

/-- `ADD_ATTR_LONGLONG`. -/
def addAttrLongLong (x dflt : ℤ) := newAttr skip toString name x dflt

/-- `ADD_ATTR_DOUBLE`. -/
def addAttrDouble (x dflt : Double) := newAttr skip Double.printG10 name x dflt

/-- `ADD_ATTR_BOOL`. -/
def addAttrBool (x dflt : Bool) :=
  newAttr skip (fun b : Bool => if b then "1" else "0") name x dflt

/-- `ADD_ATTR_STRING`. -/
def addAttrString (x dflt : String) := newAttr skip c_str name x dflt

end Write

/-! ## Reading a field -/

section Read

variable (node : XmlNode) (name : String)

/-- `GET_ATTR_INT`. -/
def getAttrInt (x : ℤ) : ℤ := (node.prop name).elim x atoi

/-- `GET_ATTR_LONG`. -/
def getAttrLong (x : ℤ) : ℤ := (node.prop name).elim x atol

/-- `GET_ATTR_LONGLONG`. -/
def getAttrLongLong (x : ℤ) : ℤ := (node.prop name).elim x atoll

/-- `GET_ATTR_DOUBLE`. -/
def getAttrDouble (x : Double) : Double := (node.prop name).elim x Double.atof

/-- `GET_ATTR_BOOL`. -/
def getAttrBool (x : Bool) : Bool := (node.prop name).elim x fun v => atoi v ≠ 0

/-- `GET_ATTR_STRING`. -/
def getAttrString (x : String) : String := (node.prop name).elim x id

end Read

/-! ## A field that is written and read -/

section Kept

variable {skip : Bool} {x d : ℤ} {r u : Double} {b c : Bool} {s t : String}

theorem long_kept (h : InLong x) : (written skip toString x d).elim d atol = x :=
  read_written_of (atol_toString h)

theorem longLong_kept (h : InLong x) : (written skip toString x d).elim d atoll = x :=
  read_written_of (atol_toString h)

theorem int_kept (h : InInt x) : (written skip toString x d).elim d atoi = x :=
  read_written_of (atoi_toString h)

theorem double_kept (h : r.PrintsExactly) :
    (written skip Double.printG10 r u).elim u Double.atof = r :=
  read_written_of h

theorem bool_kept : (written skip (fun b : Bool => if b then "1" else "0") b c).elim c
    (fun v => decide (atoi v ≠ 0)) = b :=
  read_written_of (by cases b <;> decide +kernel)

/-- A string is cut at its first NUL. -/
theorem string_kept (h : CString t) : (written skip c_str s t).elim t id = s ↔ CString s :=
  read_written h

/-- **A number written as a `long long` and read as an `int`.** -/
theorem narrowed_kept (h : InInt d) :
    (written skip toString x d).elim d atoi = x ↔ InInt x :=
  (read_written (atoi_toString h)).trans atoi_toString_iff

end Kept

end Twstools
