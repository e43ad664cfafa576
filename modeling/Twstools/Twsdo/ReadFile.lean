import Twstools.Twsdo.WorkFile
import Twstools.Xml.Broken
import Twstools.Xml.Order
/-!
# What a work file must have

`read_req` takes the `query` out of an element without looking whether there
is one, and for an order it asserts that the answer has no rows. So reading
a file ends well exactly when its elements have what `read_req` takes for
granted. Then each element of a known type adds its job and is counted, and
all others leave the jobs as they are.
-/

namespace Twstools

/-! ## The types of jobs -/

/-- The types of jobs with a query. -/
def Job.queryTypes : List String :=
  ["contract_details", "historical_data", "place_order", "market_data", "opt_params"]

/-- The types of jobs `read_req` knows. -/
def Job.types : List String := Job.queryTypes ++ ["account", "executions", "open_orders"]

namespace XmlNode

/-- Whether there is a query. -/
def hasQuery (xn : XmlNode) : Bool := xn.children.any (·.is "query")

/-- Whether there is an answer with something in it. -/
def hasRows (xn : XmlNode) : Bool :=
  xn.children.any fun p => p.is "response" && p.children.any (·.isElement)

/-- Whether it is a request of a known type. -/
def asks (xn : XmlNode) : Bool := xn.is "request" && (xn.prop "type").any (· ∈ Job.types)

/-- **What `read_req` takes for granted**: the query of a job that needs
one, and no rows in the answer to an order. -/
def Complete (xn : XmlNode) : Prop :=
  (∀ t ∈ xn.prop "type", t ∈ Job.queryTypes → xn.hasQuery = true) ∧
    (xn.prop "type" = some "place_order" → xn.hasRows = false)

instance (xn : XmlNode) : Decidable xn.Complete := inferInstanceAs (Decidable (_ ∧ (_ → _)))

end XmlNode

/-! ## The readers -/

/-- What a loop sets in some rounds is set at its end if there was one. -/
theorem foldl_isSome {α β γ : Type} {f : β → α → β} {g : β → Option γ} {q : α → Bool}
    (hf : ∀ b a, (g (f b a)).isSome = (q a || (g b).isSome)) (l : List α) (b : β) :
    (g (l.foldl f b)).isSome = (l.any q || (g b).isSome) := by
  induction l generalizing b with
  | nil => rfl
  | cons a l ih =>
      rw [List.foldl_cons, ih, hf, List.any_cons, Bool.or_left_comm, Bool.or_assoc]

variable {api : OrderDefaults} {xn : XmlNode}

theorem PacketContractDetails.isSome_request :
    (PacketContractDetails.fromXml api.toDetailsDefaults xn).request.isSome = xn.hasQuery := by
  refine (foldl_isSome (g := PacketContractDetails.request) (fun pcd p => ?_) _ _).trans
    (Bool.or_false _)
  unfold readChild
  by_cases hq : p.is "query" = true
  · rw [if_pos hq, hq]
    split
    · rfl
    · rfl
  · rw [if_neg hq, Bool.eq_false_iff.2 hq]
    split
    · rfl
    · rfl

/-- Rows leave the request. -/
theorem PacketHistData.request_readRows (qs : List XmlNode) : ∀ phd : PacketHistData,
    (qs.foldl PacketHistData.readRow phd).request = phd.request := by
  induction qs with
  | nil => exact fun _ => rfl
  | cons q qs ih =>
      intro phd
      rw [List.foldl_cons, ih, readRow]
      split_ifs
      · rfl
      · rfl
      · rfl

theorem PacketHistData.isSome_request :
    (PacketHistData.fromXml api.toApiDefaults xn).request.isSome = xn.hasQuery := by
  refine (foldl_isSome (g := PacketHistData.request) (fun phd p => ?_) _ _).trans
    (Bool.or_false _)
  have hrows : ∀ phd : PacketHistData, (if p.is "response" then p.children.foldl readRow phd
      else phd).request = phd.request := fun phd => by
    split
    · exact PacketHistData.request_readRows _ phd
    · rfl
  rw [readChild, hrows]
  by_cases hq : p.is "query" = true
  · rw [if_pos hq, hq]
    rfl
  · rw [if_neg hq, Bool.eq_false_iff.2 hq]
    rfl

theorem PacketMktData.isSome_request :
    (PacketMktData.fromXml api.toApiDefaults xn).isSome = xn.hasQuery := by
  refine (foldl_isSome (g := id) (fun request p => ?_) _ _).trans (Bool.or_false _)
  by_cases hq : p.is "query" = true
  · rw [if_pos hq, hq]
    rfl
  · rw [if_neg hq, Bool.eq_false_iff.2 hq]
    rfl

theorem PacketOptParams.isSome_request :
    (PacketOptParams.fromXml api.toApiDefaults xn).request.isSome = xn.hasQuery := by
  refine (foldl_isSome (g := PacketOptParams.request) (fun pop p => ?_) _ _).trans
    (Bool.or_false _)
  by_cases hq : p.is "query" = true
  · rw [if_pos hq, hq]
    rfl
  · rw [if_neg hq, Bool.eq_false_iff.2 hq]
    rfl

/-- What a child of an order's element does to the packet. -/
def PacketPlaceOrder.setQuery (api : OrderDefaults) (ppo : PacketPlaceOrder) (p : XmlNode) :
    PacketPlaceOrder :=
  if p.is "query" then { ppo with request := some ((PlaceOrder.init api).fromXml api p) } else ppo

/-- **An order is read exactly if its answer has no rows.** -/
theorem PacketPlaceOrder.fromXml_eq_ok {ppo : PacketPlaceOrder} :
    PacketPlaceOrder.fromXml api xn = .ok ppo ↔
      xn.hasRows = false ∧ ppo = xn.children.foldl (setQuery api) {} := by
  have hrows : xn.hasRows = false ↔ ∀ p ∈ xn.children,
      (p.is "response" → ∀ q ∈ p.children, ¬ q.isElement) := by
    simp [XmlNode.hasRows]
  rw [hrows, PacketPlaceOrder.fromXml]
  refine Exec.foldlM_eq_ok_iff fun p _ ppo ppo' => ?_
  simp only [readChild, Exec.bind_eq_ok, Exec.ensure_eq_ok]
  constructor
  · rintro ⟨_, hp, h⟩
    exact ⟨hp, (Except.ok.inj h).symm⟩
  · rintro ⟨hp, rfl⟩
    exact ⟨(), hp, rfl⟩

theorem PacketPlaceOrder.isSome_request {ppo : PacketPlaceOrder}
    (h : PacketPlaceOrder.fromXml api xn = .ok ppo) : ppo.request.isSome = xn.hasQuery := by
  obtain ⟨-, rfl⟩ := PacketPlaceOrder.fromXml_eq_ok.1 h
  refine (foldl_isSome (g := PacketPlaceOrder.request) (fun ppo p => ?_) _ _).trans
    (Bool.or_false _)
  unfold setQuery
  by_cases hq : p.is "query" = true
  · rw [if_pos hq, hq]
    rfl
  · rw [if_neg hq, Bool.eq_false_iff.2 hq]
    rfl

/-! ## The jobs -/

/-- An element without a type, or with an unknown one, is passed over. -/
theorem Job.fromXml_of_unknown (h : (xn.prop "type").any (· ∈ Job.types) = false) :
    Job.fromXml api xn = .ok none := by
  unfold Job.fromXml
  split
  · rfl
  · rename_i t ht
    rw [ht] at h
    simp only [Job.types, Job.queryTypes, Option.any_some, decide_eq_false_iff_not, List.mem_cons,
      List.cons_append, List.nil_append, List.not_mem_nil, or_false, not_or] at h
    obtain ⟨h1, h2, h3, h4, h5, h6, h7, h8⟩ := h
    simp only [h1, h2, h3, h4, h5, h6, h7, h8, if_false]
    rfl

/-- Nothing is asked of it. -/
theorem complete_of_unknown (h : (xn.prop "type").any (· ∈ Job.types) = false) : xn.Complete := by
  have hno : ∀ t, xn.prop "type" = some t → t ∉ Job.types := fun t ht => by
    simpa [ht] using h
  constructor
  · intro t ht hmem
    exact absurd (List.mem_append_left _ hmem) (hno t ht)
  · intro ht
    exact absurd (by decide) (hno _ ht)

/-- The job that a query is made into. -/
theorem job_of_query {α : Type} {request : Option α} {f : α → Job}
    (hr : request.isSome = xn.hasQuery) :
    (xn.hasQuery = true → ∃ job, (do let r ← deref request; pure (some (f r))) =
      (.ok (some job) : Exec Assertion (Option Job))) ∧
    ∀ j, (do let r ← deref request; pure (some (f r))) = (.ok j : Exec Assertion (Option Job)) →
      xn.hasQuery = true := by
  rw [← hr]
  cases request with
  | none => exact ⟨fun h => absurd h Bool.false_ne_true, fun j h => by cases h⟩
  | some r => exact ⟨fun _ => ⟨f r, rfl⟩, fun _ _ => rfl⟩

/-- **An element of a known type asks for a job exactly if it is complete**,
and is never passed over. -/
theorem Job.fromXml_of_known (api : OrderDefaults)
    (h : (xn.prop "type").any (· ∈ Job.types) = true) :
    (xn.Complete → ∃ job, Job.fromXml api xn = .ok (some job)) ∧
      ∀ j, Job.fromXml api xn = .ok j → xn.Complete := by
  obtain ⟨t, ht, hmem⟩ := (Option.any_eq_true _ _).1 h
  have hc : xn.Complete ↔ (t ∈ Job.queryTypes → xn.hasQuery = true) ∧
      (t = "place_order" → xn.hasRows = false) := by
    simp [XmlNode.Complete, ht]
  rw [hc]
  simp only [Job.types, Job.queryTypes, decide_eq_true_eq, List.mem_cons, List.cons_append,
    List.nil_append, List.not_mem_nil, or_false] at hmem
  -- the eight types, in the order of `Job.types`
  rcases hmem with rfl | rfl | rfl | rfl | rfl | rfl | rfl | rfl
  all_goals
    simp only [Job.queryTypes, List.mem_cons, String.reduceEq, List.not_mem_nil, or_true,
      or_false, forall_true_left, false_imp_iff, and_true, Job.fromXml, ht, if_true, if_false]
  · exact job_of_query PacketContractDetails.isSome_request
  · exact job_of_query PacketHistData.isSome_request
  · constructor
    · rintro ⟨hq, hrows⟩
      have hppo : PacketPlaceOrder.fromXml api xn = .ok _ :=
        PacketPlaceOrder.fromXml_eq_ok.2 ⟨hrows, rfl⟩
      have hsome := PacketPlaceOrder.isSome_request hppo
      rw [hppo, Exec.ok_bind]
      exact (job_of_query hsome).1 hq
    · intro j hj
      obtain ⟨ppo, hppo, hj⟩ := Exec.bind_eq_ok.1 hj
      exact ⟨(job_of_query (PacketPlaceOrder.isSome_request hppo)).2 j hj,
        (PacketPlaceOrder.fromXml_eq_ok.1 hppo).1⟩
  · constructor
    · intro hq
      have hsome : (PacketMktData.fromXml api.toApiDefaults xn).isSome = true :=
        PacketMktData.isSome_request.trans hq
      obtain ⟨r, hr⟩ := Option.isSome_iff_exists.1 hsome
      rw [hr]
      exact (job_of_query PacketContractDetails.isSome_request).1 hq
    · intro j hj
      obtain ⟨r, -, hj⟩ := Exec.bind_eq_ok.1 hj
      exact (job_of_query PacketContractDetails.isSome_request).2 j hj
  · exact job_of_query PacketOptParams.isSome_request
  · exact ⟨⟨.account, rfl⟩, fun _ _ => trivial⟩
  · exact ⟨⟨.executions, rfl⟩, fun _ _ => trivial⟩
  · exact ⟨⟨.open_orders, rfl⟩, fun _ _ => trivial⟩

namespace WorkTodo

variable {xmlReadMemory : List UInt8 → ℤ → Option XmlDoc} {xns : List XmlNode} {w : WorkTodo}
variable {n : ℤ} {r : WorkTodo × ℤ}

/-- The job an element asks for, if it does. -/
def jobOf (api : OrderDefaults) (xn : XmlNode) : Option Job :=
  if xn.is "request" then (Job.fromXml api xn).toOption.join else none

/-- What an element of a work file does. -/
def addJob (api : OrderDefaults) (r : WorkTodo × ℤ) (xn : XmlNode) : WorkTodo × ℤ :=
  match jobOf api xn with
  | none => r
  | some job => (r.1.readReq job, r.2 + 1)

theorem exists_fromXml_iff (api : OrderDefaults) :
    (∃ j, Job.fromXml api xn = .ok j) ↔ xn.Complete := by
  cases hknown : (xn.prop "type").any (· ∈ Job.types) with
  | false =>
      exact ⟨fun _ => complete_of_unknown hknown, fun _ => ⟨_, Job.fromXml_of_unknown hknown⟩⟩
  | true =>
      have hj := Job.fromXml_of_known api hknown
      exact ⟨fun ⟨j, hok⟩ => hj.2 j hok, fun hc => (hj.1 hc).imp' some fun _ hok => hok⟩

theorem addJob_of_none (h : jobOf api xn = none) : addJob api r xn = r := by
  rw [addJob, h]

theorem addJob_of_some {job : Job} (h : jobOf api xn = some job) :
    addJob api r xn = (r.1.readReq job, r.2 + 1) := by
  rw [addJob, h]

/-- **An element is read exactly if it is complete**, when it is a request. -/
theorem readXmlNode_eq_ok (hel : xn.isElement = true) {r' : WorkTodo × ℤ} :
    readXmlNode api r xn = .ok r' ↔
      (xn.is "request" = true → xn.Complete) ∧ r' = addJob api r xn := by
  simp only [readXmlNode, Exec.ensure_of_true hel, Exec.ok_bind]
  by_cases hreq : xn.is "request" = true
  · have hjob : jobOf api xn = (Job.fromXml api xn).toOption.join := if_pos hreq
    rw [if_pos hreq, readXmlReq, ← exists_fromXml_iff api]
    cases hj : Job.fromXml api xn with
    | error f => simp [hreq, bind, Except.bind]
    | ok j =>
        rw [hj] at hjob
        cases j with
        | none =>
            rw [addJob_of_none hjob]
            simp [eq_comm (a := r')]
        | some job =>
            rw [addJob_of_some hjob]
            simp [eq_comm (a := r')]
  · have hjob : jobOf api xn = none := if_neg hreq
    rw [if_neg hreq, addJob_of_none hjob]
    simp [hreq, eq_comm (a := r')]

theorem foldl_addJob : xns.foldl (addJob api) (w, n) =
    (w.readFile (xns.filterMap (jobOf api)), n + (xns.filterMap (jobOf api)).length) := by
  induction xns generalizing w n with
  | nil => simp [readFile]
  | cons xn xns ih =>
      rw [List.foldl_cons]
      cases hj : jobOf api xn with
      | none => rw [addJob_of_none hj, ih, List.filterMap_cons_none hj]
      | some job =>
          rw [addJob_of_some hj, ih, List.filterMap_cons_some hj, List.length_cons, readFile,
            readFile, List.foldl_cons]
          congr 1
          push_cast
          omega

/-- The elements that ask for a job, and their jobs. -/
theorem forall₂_asksFor (h : ∀ xn ∈ xns, xn.is "request" = true → xn.Complete) :
    List.Forall₂ (AsksFor api) (xns.filter (·.asks)) (xns.filterMap (jobOf api)) := by
  induction xns with
  | nil => exact .nil
  | cons xn xns ih =>
      obtain ⟨hxn, hxns⟩ := List.forall_mem_cons.1 h
      cases hasks : xn.asks with
      | true =>
          obtain ⟨hreq, hknown⟩ := (Bool.and_eq_true _ _).mp hasks
          obtain ⟨job, hok⟩ := (Job.fromXml_of_known api hknown).1 (hxn hreq)
          have hjob : jobOf api xn = some job := by
            rw [jobOf, if_pos hreq, hok]
            rfl
          rw [List.filter_cons_of_pos hasks, List.filterMap_cons_some hjob]
          exact .cons ⟨hreq, hok⟩ (ih hxns)
      | false =>
          have hjob : jobOf api xn = none := by
            rcases Bool.and_eq_false_iff.1 hasks with hreq | hknown
            · exact if_neg (by simp [hreq])
            · unfold jobOf
              rw [Job.fromXml_of_unknown hknown]
              split
              · rfl
              · rfl
          rw [List.filter_cons_of_neg (by simp [hasks]), List.filterMap_cons_none hjob]
          exact ih hxns

/-- The reader returns elements only. -/
theorem isElement_of_upcoming {x : TwsXml} (h : xn ∈ x.upcoming xmlReadMemory) :
    xn.isElement = true := by
  rcases List.mem_append.1 h with h | h
  · exact (List.mem_filter.1 h).2
  · obtain ⟨doc, -, h⟩ := List.mem_flatMap.1 h
    unfold TwsXml.elements at h
    split at h
    · cases h
    · split at h
      · exact (List.mem_filter.1 h).2
      · cases h

/-- **Reading a work file ends well exactly if its requests are complete.**
The elements are those of the documents of the file, up to the first one
that cannot be parsed. When `read_file` returns, each request of a known
type has added its job, the others have changed nothing, and the number of
the former is returned. -/
theorem readXmlFile_ok_iff (h0 : xmlReadMemory [] 0 = none) (mem : ℕ → UInt8)
    (file : List Chunk) (w : WorkTodo) : ∃ n, ∀ fuel, n < fuel →
      ((∃ r, w.readXmlFile api xmlReadMemory fuel ((TwsXml.init mem).openFile file) = .ok r) ↔
        ∀ xn ∈ ((TwsXml.init mem).openFile file).upcoming xmlReadMemory,
          xn.is "request" = true → xn.Complete) ∧
      ∀ w' count, w.readXmlFile api xmlReadMemory fuel ((TwsXml.init mem).openFile file) =
          .ok (w', count) →
        ∃ jobs, List.Forall₂ (AsksFor api) ((((TwsXml.init mem).openFile file).upcoming
            xmlReadMemory).filter (·.asks)) jobs ∧
          w' = w.readFile jobs ∧ count = jobs.length := by
  generalize hx : (TwsXml.init mem).openFile file = x
  have hready : x.Ready := hx ▸ TwsXml.ready_openFile
  have hnode : ∀ xn ∈ x.upcoming xmlReadMemory, ∀ r r' : WorkTodo × ℤ,
      readXmlNode api r xn = .ok r' ↔
        (xn.is "request" = true → xn.Complete) ∧ r' = addJob api r xn :=
    fun xn hxn r r' => readXmlNode_eq_ok (isElement_of_upcoming hxn)
  refine ⟨x.pending.length + (x.upcoming xmlReadMemory).length, fun fuel hfuel => ?_⟩
  have hread : ∀ r, w.readXmlFile api xmlReadMemory fuel x = .ok r ↔
      (∀ xn ∈ x.upcoming xmlReadMemory, xn.is "request" = true → xn.Complete) ∧
        r = (x.upcoming xmlReadMemory).foldl (addJob api) (w, 0) := fun r => by
    rw [readXmlFile, TwsXml.nextXmlNodes_eq h0 hready hfuel, Exec.ok_bind]
    exact Exec.foldlM_eq_ok_iff hnode
  constructor
  · constructor
    · rintro ⟨r, hr⟩
      exact ((hread r).1 hr).1
    · intro hc
      exact ⟨_, (hread _).2 ⟨hc, rfl⟩⟩
  · intro w' count hr
    obtain ⟨hc, hr⟩ := (hread _).1 hr
    rw [foldl_addJob] at hr
    obtain ⟨rfl, rfl⟩ := Prod.mk.inj hr
    exact ⟨_, forall₂_asksFor hc, rfl, Int.zero_add _⟩

/-! ## Files of one document -/

/-- A parser that reads one text, as a document with these nodes. -/
def readText (text : List UInt8) (nodes : List XmlNode) (s : List UInt8) (_ : ℤ) : Option XmlDoc :=
  if s = text then some ⟨[.element "TWSXML" [] nodes]⟩ else none

theorem upcoming_text {text : List UInt8} (nodes : List XmlNode) (mem : ℕ → UInt8)
    (hpos : 0 < text.length) (hle : text.length ≤ CHUNK_SIZE) (hsep : FORM_FEED ∉ text) :
    ((TwsXml.init mem).openFile [⟨text, hpos, hle⟩]).upcoming (readText text nodes) =
      nodes.filter (·.isElement) := by
  have hne : text ≠ [] := List.ne_nil_of_length_pos hpos
  have h0 : readText text nodes [] 0 = none := if_neg hne.symm
  have hdoc : TwsXml.readSegment (readText text nodes) text =
      some ⟨[.element "TWSXML" [] nodes]⟩ := if_pos rfl
  have hfile : TwsXml.content [⟨text, hpos, hle⟩] =
      [FORM_FEED].intercalate [text] ++ if false = true then [FORM_FEED] else [] := by
    simp [TwsXml.content]
  rw [TwsXml.upcoming_openFile h0 (by simpa using hsep) hfile]
  simp [hdoc, TwsXml.elements, XmlDoc.getRootElement, XmlNode.isElement, XmlNode.is,
    XmlNode.children]

/-- Reading such a file. -/
theorem readXmlFile_text (w : WorkTodo) {text : List UInt8} (nodes : List XmlNode)
    (mem : ℕ → UInt8) (hpos : 0 < text.length) (hle : text.length ≤ CHUNK_SIZE)
    (hsep : FORM_FEED ∉ text) : ∃ n, ∀ fuel, n < fuel → w.readXmlFile api (readText text nodes) fuel
      ((TwsXml.init mem).openFile [⟨text, hpos, hle⟩]) =
        (nodes.filter (·.isElement)).foldlM (readXmlNode api) (w, 0) := by
  have h0 : readText text nodes [] 0 = none := if_neg (List.ne_nil_of_length_pos hpos).symm
  have hup := upcoming_text nodes mem hpos hle hsep
  generalize hx : (TwsXml.init mem).openFile [⟨text, hpos, hle⟩] = x at hup ⊢
  have hready : x.Ready := hx ▸ TwsXml.ready_openFile
  refine ⟨x.pending.length + (x.upcoming (readText text nodes)).length, fun fuel hfuel => ?_⟩
  rw [readXmlFile, TwsXml.nextXmlNodes_eq h0 hready hfuel, hup]
  rfl

/-- A request for contract details, and something else. -/
def detailsText : List UInt8 :=
  TwsXml.bytesOf "<TWSXML><request type='contract_details'><query/></request><note/></TWSXML>"

/-- Its nodes. -/
def detailsNodes : List XmlNode :=
  [.element "request" [("type", "contract_details")] [.element "query" [] []],
    .element "note" [] []]

/-- It is read as one job. -/
theorem readXmlFile_ok_iff_details : ∃ n, ∀ fuel, n < fuel → ∃ w',
    WorkTodo.readXmlFile PlaceOrder.unsetApi (readText detailsText detailsNodes) fuel {}
      ((TwsXml.init fun _ => 0).openFile [⟨detailsText, by decide, by decide⟩]) = .ok (w', 1) := by
  obtain ⟨n, hn⟩ := @readXmlFile_ok_iff PlaceOrder.unsetApi (readText detailsText detailsNodes)
    (by decide) (fun _ => 0) [⟨detailsText, by decide, by decide⟩] {}
  refine ⟨n, fun fuel hfuel => ?_⟩
  have hup := @upcoming_text detailsText detailsNodes (fun _ => 0) (by decide) (by decide)
    (by decide)
  obtain ⟨hok, hjobs⟩ := hn fuel hfuel
  rw [hup] at hok hjobs
  obtain ⟨⟨w', count⟩, hr⟩ := hok.2 (by decide)
  obtain ⟨jobs, hasks, -, rfl⟩ := hjobs w' count hr
  have hlen : jobs.length = 1 := hasks.length_eq.symm
  exact ⟨w', by rw [hr, hlen]; rfl⟩

/-- A request without a query. -/
def noQueryText : List UInt8 := TwsXml.bytesOf "<TWSXML><request type='contract_details'/></TWSXML>"

/-- An order as the program writes it when it is over. -/
def answeredText : List UInt8 :=
  TwsXml.bytesOf ("<TWSXML><request type='place_order'><query/>" ++
    "<response><OrderStatus/></response></request></TWSXML>")

/-- **A request without a query ends the program**, and so does an order
that comes with its answer. -/
theorem incomplete_requests : ∃ n, ∀ fuel, n < fuel →
    WorkTodo.readXmlFile PlaceOrder.unsetApi
      (readText noQueryText [.element "request" [("type", "contract_details")] []]) fuel {}
      ((TwsXml.init fun _ => 0).openFile [⟨noQueryText, by decide, by decide⟩]) =
        .error .badAccess ∧
    WorkTodo.readXmlFile PlaceOrder.unsetApi
      (readText answeredText [.element "request" [("type", "place_order")]
        [.element "query" [] [], .element "response" [] [.element "OrderStatus" [] []]]]) fuel {}
      ((TwsXml.init fun _ => 0).openFile [⟨answeredText, by decide, by decide⟩]) =
        .error (.assertion .placeOrderFromXml) := by
  obtain ⟨n, hn⟩ := @readXmlFile_text PlaceOrder.unsetApi {} noQueryText
    [.element "request" [("type", "contract_details")] []] (fun _ => 0)
    (by decide) (by decide) (by decide)
  obtain ⟨m, hm⟩ := @readXmlFile_text PlaceOrder.unsetApi {} answeredText
    [.element "request" [("type", "place_order")]
      [.element "query" [] [], .element "response" [] [.element "OrderStatus" [] []]]]
    (fun _ => 0) (by decide) (by decide) (by decide)
  refine ⟨n + m, fun fuel hfuel => ⟨?_, ?_⟩⟩
  · rw [hn fuel (by omega)]
    rfl
  · rw [hm fuel (by omega)]
    rfl

end WorkTodo

end Twstools
