import Twstools.Xml.Blank
import Twstools.Twsdo.ReadFile
/-!
# White space in a work file

A work file may have its elements on lines of their own, like the files the
programs print themselves. `read_req` does not see the difference: it takes
the same job from an element, and fails for the same ones.
-/

namespace Twstools

namespace XmlNode

variable {node : XmlNode} {name : String}

/-- Elements with something in common are found without the texts. -/
theorem any_strip {f : XmlNode → Bool} (htext : ∀ p, p.isElement = false → f p = false)
    (hf : ∀ p, f p.strip = f p) : node.strip.children.any f = node.children.any f := by
  have hel : ∀ p : XmlNode, (p.isElement && f p) = f p := fun p => by
    cases hp : p.isElement with
    | false => rw [htext p hp, Bool.false_and]
    | true => rw [Bool.true_and]
  rw [children_strip, List.any_map, List.any_filter]
  simp only [Function.comp_apply, hf, hel]

@[simp] theorem hasQuery_strip : node.strip.hasQuery = node.hasQuery :=
  any_strip (fun _ => is_of_not_isElement) fun _ => is_strip

@[simp] theorem hasRows_strip : node.strip.hasRows = node.hasRows := by
  refine any_strip (fun p hp => ?_) fun p => ?_
  · rw [is_of_not_isElement hp, Bool.false_and]
  · rw [is_strip, any_strip (f := (·.isElement)) (fun _ => id) fun _ => isElement_strip]

end XmlNode

variable {node : XmlNode}

/-! ## The readers -/

theorem TagValue.convXml2ib_strip {tV : TagValue} :
    tV.convXml2ib node.strip = tV.convXml2ib node := by
  simp [convXml2ib]

theorem getChildTagValueList_strip {dflt : TagValue} :
    getChildTagValueList node.strip dflt = getChildTagValueList node dflt :=
  XmlNode.map_filter_strip fun _ => TagValue.convXml2ib_strip

section Details

variable {api : DetailsDefaults}

theorem ContractDetails.convXml2ib_strip {cd : ContractDetails} :
    cd.convXml2ib api node.strip = cd.convXml2ib api node := by
  have hchild : ∀ (cd : ContractDetails) (p : XmlNode), cd.readChild api p.strip =
      cd.readChild api p := fun cd p => by
    simp only [readChild, XmlNode.is_strip, Contract.convXml2ib_strip, getChildTagValueList_strip]
  have htext : ∀ (cd : ContractDetails) (p : XmlNode), p.isElement = false →
      cd.readChild api p = cd := fun cd p hp => by
    simp [readChild, XmlNode.is_of_not_isElement hp]
  rw [convXml2ib, convXml2ib, XmlNode.foldl_strip htext hchild]
  simp only [getAttrInt_strip, getAttrLong_strip, getAttrDouble_strip, getAttrBool_strip,
    getAttrString_strip]

theorem ContractDetailsRequest.fromXml_strip {cdr : ContractDetailsRequest} :
    cdr.fromXml api node.strip = cdr.fromXml api node :=
  XmlNode.foldl_strip (fun cdr p hp => by simp [XmlNode.is_of_not_isElement hp])
    fun cdr p => by simp [Contract.convXml2ib_strip]

theorem PacketContractDetails.fromXml_strip : fromXml api node.strip = fromXml api node := by
  refine XmlNode.foldl_strip (fun pcd p hp => ?_) fun pcd p => ?_
  · simp [readChild, XmlNode.is_of_not_isElement hp]
  · simp only [readChild, XmlNode.is_strip, ContractDetailsRequest.fromXml_strip,
      XmlNode.map_filter_strip fun q => ContractDetails.convXml2ib_strip]

end Details

section Requests

variable {api : ApiDefaults}

theorem MktDataRequest.fromXml_strip {mdr : MktDataRequest} :
    mdr.fromXml api node.strip = mdr.fromXml api node := by
  rw [fromXml, fromXml, XmlNode.foldl_strip]
  · simp only [getAttrBool_strip, getAttrString_strip]
  · exact fun c p hp => by simp [XmlNode.is_of_not_isElement hp]
  · exact fun c p => by simp [Contract.convXml2ib_strip]

theorem OptParamsRequest.fromXml_strip {opr : OptParamsRequest} :
    opr.fromXml api node.strip = opr.fromXml api node := by
  rw [fromXml, fromXml, XmlNode.foldl_strip]
  · exact fun c p hp => by simp [XmlNode.is_of_not_isElement hp]
  · exact fun c p => by simp [Contract.convXml2ib_strip]

theorem PacketMktData.fromXml_strip : fromXml api node.strip = fromXml api node :=
  XmlNode.foldl_strip (fun r p hp => by simp [XmlNode.is_of_not_isElement hp])
    fun r p => by simp [MktDataRequest.fromXml_strip]

theorem PacketOptParams.fromXml_strip : fromXml api node.strip = fromXml api node :=
  XmlNode.foldl_strip (fun pop p hp => by simp [XmlNode.is_of_not_isElement hp])
    fun pop p => by simp [OptParamsRequest.fromXml_strip]

end Requests

section Orders

variable {api : OrderDefaults}

theorem OrderComboLeg.convXml2ib_strip {oCL : OrderComboLeg} :
    oCL.convXml2ib node.strip = oCL.convXml2ib node := by
  simp [convXml2ib]

theorem Order.convXml2ib_strip {o : Order} : o.convXml2ib api node.strip =
    o.convXml2ib api node := by
  have hchild : ∀ (o : Order) (p : XmlNode), o.readChild api p.strip = o.readChild api p :=
    fun o p => by
      simp only [readChild, XmlNode.is_strip, getChildTagValueList_strip,
        XmlNode.map_filter_strip fun q => OrderComboLeg.convXml2ib_strip]
  have htext : ∀ (o : Order) (p : XmlNode), p.isElement = false → o.readChild api p = o :=
    fun o p hp => by simp [readChild, XmlNode.is_of_not_isElement hp]
  rw [convXml2ib, convXml2ib, XmlNode.foldl_strip htext hchild]
  simp only [OrderTerms.getAttrs, OrderRouting.getAttrs, OrderVolatility.getAttrs,
    OrderScale.getAttrs, OrderPegged.getAttrs, getAttrInt_strip, getAttrLong_strip,
    getAttrDouble_strip, getAttrBool_strip, getAttrString_strip]

theorem PlaceOrder.fromXml_strip {po : PlaceOrder} :
    po.fromXml api node.strip = po.fromXml api node := by
  have hlong : ∀ {name : String} {x : ℤ}, getAttrLongLong node.strip name x =
      getAttrLongLong node name x := by
    simp [getAttrLongLong]
  rw [fromXml, fromXml, XmlNode.foldl_strip]
  · simp only [getAttrLong_strip, hlong]
  · exact fun po p hp => by simp [readChild, XmlNode.is_of_not_isElement hp]
  · exact fun po p => by
      simp only [readChild, XmlNode.is_strip, Contract.convXml2ib_strip, Order.convXml2ib_strip]

theorem PacketPlaceOrder.fromXml_strip {ppo : PacketPlaceOrder} :
    fromXml api node.strip = .ok ppo ↔ fromXml api node = .ok ppo := by
  rw [fromXml_eq_ok, fromXml_eq_ok, XmlNode.hasRows_strip, XmlNode.foldl_strip]
  · exact fun ppo p hp => by simp [setQuery, XmlNode.is_of_not_isElement hp]
  · exact fun ppo p => by simp [setQuery, PlaceOrder.fromXml_strip]

/-- **White space does not matter to `read_req`.** -/
theorem Job.fromXml_strip {job : Option Job} :
    Job.fromXml api node.strip = .ok job ↔ Job.fromXml api node = .ok job := by
  have horder : (do
        let ppo ← PacketPlaceOrder.fromXml api node.strip
        let r ← deref ppo.request
        pure (some (Job.place_order r))) = (.ok job : Exec Assertion (Option Job)) ↔
      (do
        let ppo ← PacketPlaceOrder.fromXml api node
        let r ← deref ppo.request
        pure (some (Job.place_order r))) = (.ok job : Exec Assertion (Option Job)) := by
    simp only [Exec.bind_eq_ok, PacketPlaceOrder.fromXml_strip]
  unfold Job.fromXml
  rw [XmlNode.prop_strip]
  split
  · exact Iff.rfl
  · simp only [PacketContractDetails.fromXml_strip, PacketHistData.fromXml_strip,
      PacketMktData.fromXml_strip, PacketOptParams.fromXml_strip]
    split_ifs
    · exact Iff.rfl
    · exact Iff.rfl
    · exact horder
    all_goals exact Iff.rfl

end Orders

end Twstools
