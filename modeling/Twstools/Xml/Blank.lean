import Twstools.Xml.HistData
import Twstools.Xml.Delivery
/-!
# White space between elements

A document is printed with its elements on lines of their own, so that the
one that is read has texts between them. `strip` takes them out; the
readers do not see the difference.
-/

namespace Twstools

namespace XmlNode

mutual

/-- The node without texts and the like. -/
def strip : XmlNode → XmlNode
  | element name attrs children => element name attrs (stripAll children)
  | other => other

/-- The elements of a list, without texts and the like. -/
def stripAll : List XmlNode → List XmlNode
  | [] => []
  | p :: ps => if p.isElement then p.strip :: stripAll ps else stripAll ps

end

theorem stripAll_eq (l : List XmlNode) : stripAll l = (l.filter (·.isElement)).map strip := by
  induction l with
  | nil => rfl
  | cons p l ih =>
      rw [stripAll, ih, List.filter_cons]
      split <;> rfl

variable {node : XmlNode} {name : String}

theorem children_strip : node.strip.children = (node.children.filter (·.isElement)).map strip := by
  cases node with
  | element name attrs children => exact stripAll_eq children
  | other => rfl

@[simp] theorem prop_strip : node.strip.prop name = node.prop name := by cases node <;> rfl

@[simp] theorem is_strip : node.strip.is name = node.is name := by cases node <;> rfl

@[simp] theorem isElement_strip : node.strip.isElement = node.isElement := by cases node <;> rfl

theorem is_of_not_isElement (h : node.isElement = false) : node.is name = false := by
  cases node with
  | element => cases h
  | other => rfl

/-- **A loop over the children** that passes over texts. -/
theorem foldl_strip {α : Type} {f : α → XmlNode → α} {a : α}
    (htext : ∀ a p, p.isElement = false → f a p = a) (hf : ∀ a p, f a p.strip = f a p) :
    node.strip.children.foldl f a = node.children.foldl f a := by
  rw [children_strip, List.foldl_map, List.foldl_filter]
  congr
  funext a p
  split
  · exact hf a p
  · rename_i hp
    exact (htext a p (by simpa using hp)).symm

/-- A list made of the children with a name. -/
theorem map_filter_strip {α : Type} {g : XmlNode → α} (hg : ∀ p, g p.strip = g p) :
    (node.strip.children.filter (·.is name)).map g =
      (node.children.filter (·.is name)).map g := by
  have hel : ∀ p : XmlNode, (p.is name && p.isElement) = p.is name := fun p => by
    rcases h : p.isElement with _ | _
    · rw [is_of_not_isElement h]
      rfl
    · simp
  rw [children_strip, List.filter_map, List.map_map, List.filter_filter]
  simp only [Function.comp_def, is_strip, hg, hel]

end XmlNode

/-! ## The fields -/

section Fields

variable {node : XmlNode} {name : String}

@[simp] theorem getAttrInt_strip {x : ℤ} :
    getAttrInt node.strip name x = getAttrInt node name x := by
  simp [getAttrInt]

@[simp] theorem getAttrLong_strip {x : ℤ} :
    getAttrLong node.strip name x = getAttrLong node name x := by
  simp [getAttrLong]

@[simp] theorem getAttrDouble_strip {x : Double} :
    getAttrDouble node.strip name x = getAttrDouble node name x := by
  simp [getAttrDouble]

@[simp] theorem getAttrBool_strip {x : Bool} :
    getAttrBool node.strip name x = getAttrBool node name x := by
  simp [getAttrBool]

@[simp] theorem getAttrString_strip {x : String} :
    getAttrString node.strip name x = getAttrString node name x := by
  simp [getAttrString]

end Fields

/-! ## The readers -/

variable {node : XmlNode} {api : ApiDefaults}

theorem ComboLeg.convXml2ib_strip {cl : ComboLeg} :
    cl.convXml2ib node.strip = cl.convXml2ib node := by
  simp [convXml2ib]

theorem DeltaNeutralContract.convXml2ib_strip {uc : DeltaNeutralContract} :
    uc.convXml2ib node.strip = uc.convXml2ib node := by
  simp [convXml2ib]

theorem Contract.convXml2ib_strip {c : Contract} :
    c.convXml2ib api node.strip = c.convXml2ib api node := by
  have hchild : ∀ (c : Contract) (p : XmlNode), c.readChild api p.strip = c.readChild api p :=
    fun c p => by
      simp only [readChild, XmlNode.is_strip, DeltaNeutralContract.convXml2ib_strip,
        XmlNode.map_filter_strip fun q => ComboLeg.convXml2ib_strip]
  have htext : ∀ (c : Contract) (p : XmlNode), p.isElement = false → c.readChild api p = c :=
    fun c p hp => by simp [readChild, XmlNode.is_of_not_isElement hp]
  rw [convXml2ib, convXml2ib, XmlNode.foldl_strip htext hchild]
  simp only [getAttrLong_strip, getAttrDouble_strip, getAttrBool_strip, getAttrString_strip]

theorem HistRequest.fromXml_strip {hR : HistRequest} :
    hR.fromXml api node.strip = hR.fromXml api node := by
  rw [fromXml, fromXml, XmlNode.foldl_strip]
  · simp only [getAttrInt_strip, getAttrString_strip]
  · exact fun c p hp => by simp [XmlNode.is_of_not_isElement hp]
  · exact fun c p => by simp [Contract.convXml2ib_strip]

theorem RowHist.fromXml_strip : RowHist.fromXml node.strip = RowHist.fromXml node := by
  simp [fromXml]

namespace PacketHistData

theorem readRow_strip {p : PacketHistData} : p.readRow node.strip = p.readRow node := by
  simp [readRow, RowHist.fromXml_strip]

theorem readChild_strip {p : PacketHistData} :
    p.readChild api node.strip = p.readChild api node := by
  have htext : ∀ (p : PacketHistData) (q : XmlNode), q.isElement = false → p.readRow q = p :=
    fun p q hq => by simp [readRow, XmlNode.is_of_not_isElement hq]
  simp only [readChild, XmlNode.is_strip, HistRequest.fromXml_strip,
    XmlNode.foldl_strip htext fun p q => readRow_strip]

/-- **Historical data is read the same** with white space and without. -/
theorem fromXml_strip : fromXml api node.strip = fromXml api node :=
  XmlNode.foldl_strip
    (fun p q hq => by simp [readChild, XmlNode.is_of_not_isElement hq])
    fun p q => readChild_strip

end PacketHistData

/-! ## Documents -/

/-- The document without texts and the like. -/
def XmlDoc.strip (doc : XmlDoc) : XmlDoc := ⟨XmlNode.stripAll doc.children⟩

end Twstools
