import Twstools.Xml.Stream
import Twstools.Common.Segments
/-!
# What a stream delivers

The reader is compared with the stream as a list of bytes: what is still
`pending` is what the buffer holds and the file will give, in whatever
chunks. One call of `nextXmlDoc` takes one segment off it, and the calls of
`nextXmlNode` return `upcoming` one by one. So a whole stream delivers the
elements of its documents, and no access leaves the buffer.
-/

namespace Twstools

/-! ## The separator -/

/-- **The search stops at the first form feed** of the range, or behind it. -/
theorem findFormFeed_eq {buf : Block UInt8} {n : ℕ} : ∀ {s : ℕ}, s + n ≤ buf.size →
    findFormFeed buf s n = .ok (segment FORM_FEED (buf.slice s n)).length := by
  induction n with
  | zero => exact fun _ => rfl
  | succ n ih =>
      intro s h
      rw [findFormFeed, Block.read_eq (by omega), Exec.ok_bind, Block.slice_succ, segment,
        List.takeWhile_cons]
      by_cases hc : buf.cell s = FORM_FEED
      · simp [hc]
      · rw [if_neg hc, ih (by omega), if_pos (by simpa using hc)]
        rfl

/-- The search in a range without form feed. -/
theorem findFormFeed_of_not_mem {buf : Block UInt8} {s n : ℕ} (h : s + n ≤ buf.size)
    (hn : FORM_FEED ∉ buf.slice s n) : findFormFeed buf s n = .ok n := by
  rw [findFormFeed_eq h, segment_of_not_mem hn, Block.length_slice]

/-- The search in a range with one. -/
theorem findFormFeed_of_eq {buf : Block UInt8} {s n : ℕ} {pre post : List UInt8}
    (h : s + n ≤ buf.size) (hp : FORM_FEED ∉ pre)
    (hs : buf.slice s n = pre ++ FORM_FEED :: post) :
    findFormFeed buf s n = .ok pre.length := by
  rw [findFormFeed_eq h, hs, segment_append hp]

namespace TwsXml

variable {x : TwsXml}

/-! ## What is pending -/

/-- The bytes the chunks have. -/
def content (file : List Chunk) : List UInt8 := file.flatMap (·.bytes)

/-- The bytes no document was made of yet. -/
def pending (x : TwsXml) : List UInt8 :=
  match x.file with
  | none => []
  | some file => x.buf.slice 0 x.bufLen ++ content file

/-- The buffer has the size the reader thinks, and what it holds is inside. -/
structure Buffered (x : TwsXml) : Prop where
  size : x.buf.size = x.bufSize
  len : x.bufLen ≤ x.bufSize

/-- Between two documents what is left over was read in one chunk. -/
structure Ready (x : TwsXml) : Prop extends Buffered x where
  rest : x.bufLen ≤ CHUNK_SIZE

/-- A new reader with a file. -/
theorem ready_openFile {mem : ℕ → UInt8} {file : List Chunk} :
    ((init mem).openFile file).Ready :=
  ⟨⟨rfl, Nat.zero_le _⟩, Nat.zero_le _⟩

theorem pending_openFile {mem : ℕ → UInt8} {file : List Chunk} :
    ((init mem).openFile file).pending = content file := rfl

/-- **There is room for a chunk**, and nothing else has changed. -/
theorem makeRoom_spec (h : x.Buffered) : x.makeRoom.Buffered ∧
    x.makeRoom.bufLen + CHUNK_SIZE ≤ x.makeRoom.bufSize ∧ x.makeRoom.bufLen = x.bufLen ∧
    x.makeRoom.curNode = x.curNode ∧ ∀ i n, x.makeRoom.buf.slice i n = x.buf.slice i n := by
  have hlen := h.len
  have hbuf : BUF_SIZE = 1024 * CHUNK_SIZE := rfl
  unfold makeRoom
  split
  · refine ⟨⟨rfl, ?_⟩, ?_, rfl, rfl, fun _ _ => rfl⟩ <;> simp only [resizeBuf] <;> omega
  · exact ⟨h, by omega, rfl, rfl, fun _ _ => rfl⟩

/-- What the loop of `nextXmlDoc` has found. -/
structure Found (x x' : TwsXml) (file : List Chunk) (cp jumpFf : ℕ) : Prop where
  buffered : x'.Buffered
  curNode : x'.curNode = x.curNode
  inside : cp + jumpFf ≤ x'.bufLen
  rest : x'.bufLen ≤ cp + jumpFf + CHUNK_SIZE
  doc : x'.buf.slice 0 cp = segment FORM_FEED (x.buf.slice 0 x.bufLen ++ content file)
  file : ∃ file', x'.file = some file' ∧
    x'.buf.slice (cp + jumpFf) (x'.bufLen - (cp + jumpFf)) ++ content file' =
      remainder FORM_FEED (x.buf.slice 0 x.bufLen ++ content file)

variable {file : List Chunk} {cp tmpLen : ℕ}

/-- A form feed in what is not searched yet ends the loop. -/
theorem scan_eq_of_mem {s r : List UInt8} (h : cp + tmpLen ≤ x.buf.size) (hs : FORM_FEED ∉ s)
    (heq : x.buf.slice cp tmpLen = s ++ FORM_FEED :: r) :
    scan file x cp tmpLen = .ok ({ x with file := some file }, cp + s.length, 1) := by
  have hlen := (Block.slice_of_append heq).1
  rw [List.length_cons] at hlen
  unfold scan
  rw [findFormFeed_of_eq h hs heq, Exec.ok_bind, if_pos (by omega)]
  rfl

/-- The end of the file does, too. -/
theorem scan_nil_of_not_mem (h : cp + tmpLen ≤ x.buf.size) (hcp : cp + tmpLen = x.bufLen)
    (hno : FORM_FEED ∉ x.buf.slice cp tmpLen) :
    scan [] x cp tmpLen = .ok ({ x.makeRoom with file := some [] }, x.bufLen, 0) := by
  unfold scan
  rw [findFormFeed_of_not_mem h hno, Exec.ok_bind, if_neg (Nat.lt_irrefl _), hcp, ite_self]
  rfl

/-- The reader with one more chunk in its buffer. -/
def receive (x : TwsXml) (chunk : Chunk) : TwsXml :=
  { x.makeRoom with
    buf := x.makeRoom.buf.put x.bufLen chunk.bytes
    bufLen := x.bufLen + chunk.bytes.length }

/-- Else a chunk is put behind what the buffer holds. -/
theorem scan_cons_of_not_mem {chunk : Chunk} (hx : x.Buffered) (hcp : cp + tmpLen = x.bufLen)
    (hno : FORM_FEED ∉ x.buf.slice cp tmpLen) :
    scan (chunk :: file) x cp tmpLen =
      scan file (x.receive chunk) x.bufLen chunk.bytes.length := by
  obtain ⟨hbuf, hroom, hlen, -, -⟩ := makeRoom_spec hx
  have h : cp + tmpLen ≤ x.buf.size := by
    rw [hcp, hx.size]
    exact hx.len
  have hwrite : x.bufLen + chunk.bytes.length ≤ x.makeRoom.buf.size := by
    rw [hbuf.size]
    have := chunk.le
    omega
  rw [scan.eq_def (chunk :: file)]
  simp only []
  rw [findFormFeed_of_not_mem h hno, Exec.ok_bind, if_neg (Nat.lt_irrefl _), hcp, ite_self,
    Block.write_eq hwrite, Exec.ok_bind, hlen]
  rfl

/-- **A chunk is added to what the buffer holds**, which stays. -/
theorem receive_spec (chunk : Chunk) (hx : x.Buffered) : (x.receive chunk).Buffered ∧
    (x.receive chunk).curNode = x.curNode ∧
    (x.receive chunk).buf.slice 0 x.bufLen = x.buf.slice 0 x.bufLen ∧
    (x.receive chunk).buf.slice 0 (x.receive chunk).bufLen =
      x.buf.slice 0 x.bufLen ++ chunk.bytes := by
  obtain ⟨hbuf, hroom, hlen, hcur, hslice⟩ := makeRoom_spec hx
  have hle := chunk.le
  have hold : (x.receive chunk).buf.slice 0 x.bufLen = x.buf.slice 0 x.bufLen :=
    (Block.slice_put_of_le (by omega)).trans (hslice _ _)
  refine ⟨⟨hbuf.size, ?_⟩, hcur, hold, ?_⟩
  · show x.bufLen + chunk.bytes.length ≤ x.makeRoom.bufSize
    omega
  · show (x.receive chunk).buf.slice 0 (x.bufLen + chunk.bytes.length) = _
    rw [Block.slice_add, hold, Nat.zero_add]
    exact congrArg _ Block.slice_put_self

/-- What is found at a form feed. -/
theorem found_of_mem {s r : List UInt8} (hx : x.Buffered) (hcp : cp + tmpLen = x.bufLen)
    (hno : FORM_FEED ∉ x.buf.slice 0 cp) (hle : tmpLen ≤ CHUNK_SIZE) (hs : FORM_FEED ∉ s)
    (heq : x.buf.slice cp tmpLen = s ++ FORM_FEED :: r) :
    Found x { x with file := some file } file (cp + s.length) 1 := by
  obtain ⟨hlen, hpre, hpost⟩ := Block.slice_of_append heq
  rw [List.length_cons] at hlen hpost
  rw [Block.slice_succ] at hpost
  have hall : x.buf.slice 0 x.bufLen ++ content file =
      (x.buf.slice 0 cp ++ s) ++ FORM_FEED :: (r ++ content file) := by
    rw [← hcp, Block.slice_add, Nat.zero_add, heq]
    simp
  have hnone : FORM_FEED ∉ x.buf.slice 0 cp ++ s := by simp [hno, hs]
  refine ⟨⟨hx.size, hx.len⟩, rfl, ?_, ?_, ?_, file, rfl, ?_⟩
  · show cp + s.length + 1 ≤ x.bufLen
    omega
  · show x.bufLen ≤ cp + s.length + 1 + CHUNK_SIZE
    omega
  · rw [hall, segment_append hnone, Block.slice_add, Nat.zero_add, hpre]
  · have hrest : x.bufLen - (cp + s.length + 1) = r.length := by omega
    rw [hall, remainder_append hnone]
    show x.buf.slice (cp + s.length + 1) (x.bufLen - (cp + s.length + 1)) ++ _ = _
    rw [hrest, (List.cons.inj hpost).2]

/-- What is found at the end of the file. -/
theorem found_nil (hx : x.Buffered) (hno : FORM_FEED ∉ x.buf.slice 0 x.bufLen) :
    Found x { x.makeRoom with file := some [] } [] x.bufLen 0 := by
  obtain ⟨hbuf, -, hlen, hcur, hslice⟩ := makeRoom_spec hx
  have hall : x.buf.slice 0 x.bufLen ++ content [] = x.buf.slice 0 x.bufLen := by simp [content]
  refine ⟨⟨hbuf.size, hbuf.len⟩, hcur, hlen.ge, ?_, ?_, [], rfl, ?_⟩
  · show x.makeRoom.bufLen ≤ _
    omega
  · rw [hall, segment_of_not_mem hno]
    exact hslice _ _
  · rw [hall, remainder_of_not_mem hno]
    show x.makeRoom.buf.slice _ (x.makeRoom.bufLen - _) ++ _ = _
    rw [hlen, Nat.add_zero, Nat.sub_self]
    rfl

/-- What is found after a chunk. -/
theorem Found.of_receive {x' : TwsXml} {chunk : Chunk} {jumpFf : ℕ} (hx : x.Buffered)
    (h : Found (x.receive chunk) x' file cp jumpFf) : Found x x' (chunk :: file) cp jumpFf := by
  obtain ⟨-, hcur, -, hnew⟩ := receive_spec chunk hx
  have hall : (x.receive chunk).buf.slice 0 (x.receive chunk).bufLen ++ content file =
      x.buf.slice 0 x.bufLen ++ content (chunk :: file) := by
    rw [hnew, List.append_assoc]
    rfl
  exact ⟨h.buffered, h.curNode.trans hcur, h.inside, h.rest, hall ▸ h.doc, hall ▸ h.file⟩

/-- **The loop finds the end of the first segment**, if what it has behind
`cp` is all of the buffer and in front of `cp` there is no form feed. -/
theorem scan_found (file : List Chunk) : ∀ {x : TwsXml} {cp tmpLen : ℕ}, x.Buffered →
    cp + tmpLen = x.bufLen → FORM_FEED ∉ x.buf.slice 0 cp → tmpLen ≤ CHUNK_SIZE →
    ∃ x' cp' jumpFf, scan file x cp tmpLen = .ok (x', cp', jumpFf) ∧
      Found x x' file cp' jumpFf := by
  induction file with
  | nil =>
      intro x cp tmpLen hx hcp hno hle
      have hin : cp + tmpLen ≤ x.buf.size := hcp ▸ hx.size ▸ hx.len
      rcases segment_cases FORM_FEED (x.buf.slice cp tmpLen) with hs | ⟨s, r, hs, heq⟩
      · have hall : FORM_FEED ∉ x.buf.slice 0 x.bufLen := by
          rw [← hcp, Block.slice_add, Nat.zero_add]
          simp [hno, hs]
        exact ⟨_, _, _, scan_nil_of_not_mem hin hcp hs, found_nil hx hall⟩
      · exact ⟨_, _, _, scan_eq_of_mem hin hs heq, found_of_mem hx hcp hno hle hs heq⟩
  | cons chunk file ih =>
      intro x cp tmpLen hx hcp hno hle
      have hin : cp + tmpLen ≤ x.buf.size := hcp ▸ hx.size ▸ hx.len
      rcases segment_cases FORM_FEED (x.buf.slice cp tmpLen) with hs | ⟨s, r, hs, heq⟩
      · obtain ⟨hbuf, -, hold, -⟩ := receive_spec chunk hx
        have hall : FORM_FEED ∉ (x.receive chunk).buf.slice 0 x.bufLen := by
          rw [hold, ← hcp, Block.slice_add, Nat.zero_add]
          simp [hno, hs]
        obtain ⟨x', cp', jumpFf, hscan, hf⟩ := ih hbuf rfl hall chunk.le
        exact ⟨x', cp', jumpFf, (scan_cons_of_not_mem hx hcp hs).trans hscan, hf.of_receive hx⟩
      · exact ⟨_, _, _, scan_eq_of_mem hin hs heq, found_of_mem hx hcp hno hle hs heq⟩

/-! ## Documents -/

variable (xmlReadMemory : List UInt8 → ℤ → Option XmlDoc)

/-- What a segment is read as. -/
def readSegment (s : List UInt8) : Option XmlDoc := xmlReadMemory s (toInt s.length)

/-- The elements that a document has for the program. -/
def elements (doc : XmlDoc) : List XmlNode :=
  match doc.getRootElement with
  | none => []
  | some root => if root.is "TWSXML" then root.children.filter (·.isElement) else []

/-- The documents still to come. -/
def documents (x : TwsXml) : List XmlDoc :=
  readable FORM_FEED (readSegment xmlReadMemory) x.pending

/-- The elements still to come. -/
def upcoming (x : TwsXml) : List XmlNode :=
  x.curNode.tail.filter (·.isElement) ++ (x.documents xmlReadMemory).flatMap elements

variable {xmlReadMemory}

theorem readSegment_nil (h : xmlReadMemory [] 0 = none) : readSegment xmlReadMemory [] = none := h

/-- **A document is made of the first segment**, and what is behind it is
pending. -/
theorem nextXmlDoc_spec (h0 : xmlReadMemory [] 0 = none) (hx : x.Ready) :
    ∃ x', x.nextXmlDoc xmlReadMemory =
        .ok (x', readSegment xmlReadMemory (segment FORM_FEED x.pending)) ∧
      x'.Ready ∧ x'.pending = remainder FORM_FEED x.pending ∧ x'.curNode = x.curNode := by
  cases hfile : x.file with
  | none =>
      have hp : x.pending = [] := by rw [pending, hfile]
      have hdoc : x.nextXmlDoc xmlReadMemory = .ok (x, none) := by
        rw [nextXmlDoc, hfile]
        rfl
      exact ⟨x, by rw [hdoc, hp]; exact congrArg _ (congrArg _ (readSegment_nil h0).symm), hx,
        by rw [hp]; rfl, rfl⟩
  | some file =>
      have hp : x.pending = x.buf.slice 0 x.bufLen ++ content file := by rw [pending, hfile]
      have hint : (x.bufLen : ℤ) ≤ INT_MAX := by
        have := hx.rest
        unfold CHUNK_SIZE at this
        unfold INT_MAX
        omega
      obtain ⟨x', cp, jumpFf, hscan, hf⟩ := scan_found file hx.toBuffered (Nat.zero_add _)
        (by simp) hx.rest
      obtain ⟨file', hfile', hrest⟩ := hf.file
      have hlen := hf.buffered.len
      have hsize := hf.buffered.size
      have hin := hf.inside
      have hle := hf.rest
      have hdoc : xmlReadMemory (x'.buf.slice 0 cp) (toInt cp) =
          readSegment xmlReadMemory (segment FORM_FEED x.pending) := by
        rw [readSegment, hp, ← hf.doc, Block.length_slice]
      rw [nextXmlDoc, hfile]
      dsimp only
      rw [narrow, if_pos hint, Exec.ok_bind, hscan, Exec.ok_bind]
      dsimp only
      rw [Block.view_eq (by omega), Exec.ok_bind, if_neg (by omega),
        Block.move_eq (by omega) (by omega), Exec.ok_bind, hdoc]
      refine ⟨_, rfl, ⟨⟨hsize, ?_⟩, ?_⟩, ?_, hf.curNode⟩
      · exact (Nat.sub_le _ _).trans hlen
      · show x'.bufLen - _ ≤ CHUNK_SIZE
        omega
      · rw [hp, ← hrest]
        simp only [pending, hfile', Block.slice_copy]

/-! ## Roots and elements -/

/-- What one call of `nextXmlDoc` does to the documents to come. -/
theorem documents_eq {x' : TwsXml} (h0 : xmlReadMemory [] 0 = none)
    (hp : x'.pending = remainder FORM_FEED x.pending) :
    x.documents xmlReadMemory = (readSegment xmlReadMemory (segment FORM_FEED x.pending)).elim []
      fun doc => doc :: x'.documents xmlReadMemory := by
  rw [documents, readable_eq (readSegment_nil h0), ← hp]
  rfl

/-- A document is made of at least one byte. -/
theorem pending_ne_nil {doc : XmlDoc} (h0 : xmlReadMemory [] 0 = none)
    (h : readSegment xmlReadMemory (segment FORM_FEED x.pending) = some doc) :
    x.pending ≠ [] := by
  intro hp
  rw [hp, segment, List.takeWhile_nil, readSegment_nil h0] at h
  exact absurd h (by simp)

/-- What `nextXmlRoot` returns: nothing when there is no element to come,
or else a root whose elements are the next ones, and part of the stream is
used up. -/
def RootSpec (xmlReadMemory : List UInt8 → ℤ → Option XmlDoc) (x x' : TwsXml)
    (root : Option XmlNode) : Prop :=
  match root with
  | none => (x.documents xmlReadMemory).flatMap elements = []
  | some root => x'.pending.length < x.pending.length ∧
      (x.documents xmlReadMemory).flatMap elements =
        root.children.filter (·.isElement) ++ (x'.documents xmlReadMemory).flatMap elements

/-- A document without elements may be passed over. -/
theorem RootSpec.pass {x₁ x' : TwsXml} {root : Option XmlNode}
    (h : RootSpec xmlReadMemory x₁ x' root)
    (hlen : x₁.pending.length < x.pending.length)
    (hdocs : (x.documents xmlReadMemory).flatMap elements =
      (x₁.documents xmlReadMemory).flatMap elements) : RootSpec xmlReadMemory x x' root := by
  cases root with
  | none => exact hdocs.trans h
  | some root => exact ⟨h.1.trans hlen, hdocs.trans h.2⟩

/-- **`nextXmlRoot` returns** the root of the first document to come that
is a `TWSXML` one. -/
theorem nextXmlRoot_spec (h0 : xmlReadMemory [] 0 = none) {fuel : ℕ} : ∀ {x : TwsXml}, x.Ready →
    x.pending.length < fuel → ∃ x' root, x.nextXmlRoot xmlReadMemory fuel = .ok (x', root) ∧
      x'.Ready ∧ RootSpec xmlReadMemory x x' root := by
  induction fuel with
  | zero => exact fun _ h => absurd h (Nat.not_lt_zero _)
  | succ fuel ih =>
      intro x hx hfuel
      obtain ⟨x₁, hnext, hx₁, hp₁, -⟩ := nextXmlDoc_spec h0 hx
      have hdocs := documents_eq h0 hp₁
      rw [nextXmlRoot, hnext, Exec.ok_bind]
      dsimp only
      cases hdoc : readSegment xmlReadMemory (segment FORM_FEED x.pending) with
      | none =>
          rw [hdoc] at hdocs
          exact ⟨x₁, none, rfl, hx₁, congrArg (List.flatMap elements) hdocs⟩
      | some doc =>
          rw [hdoc, Option.elim_some] at hdocs
          have hlen : x₁.pending.length < x.pending.length := by
            rw [hp₁]
            exact length_remainder_lt (pending_ne_nil h0 hdoc)
          have hpass : elements doc = [] → ∃ x' root,
              x₁.nextXmlRoot xmlReadMemory fuel = .ok (x', root) ∧ x'.Ready ∧
                RootSpec xmlReadMemory x x' root := fun he => by
            obtain ⟨x', root, hroot, hx', hspec⟩ := ih hx₁ (by omega)
            refine ⟨x', root, hroot, hx', hspec.pass hlen ?_⟩
            rw [hdocs, List.flatMap_cons, he, List.nil_append]
          dsimp only
          cases hr : doc.getRootElement with
          | none => exact hpass (by rw [elements, hr])
          | some root =>
              have helem : root.isElement = true := by simpa using List.find?_some hr
              dsimp only
              rw [Exec.ensure_of_true helem, Exec.ok_bind]
              split
              · rename_i hname
                refine ⟨x₁, some root, rfl, hx₁, hlen, ?_⟩
                rw [hdocs, List.flatMap_cons, elements, hr]
                dsimp only
                rw [if_pos hname]
              · rename_i hname
                exact hpass (by rw [elements, hr]; exact if_neg hname)

/-- The first element, when the others are passed over. -/
theorem filter_of_dropWhile {l : List XmlNode} :
    l.filter (·.isElement) = (l.dropWhile (!·.isElement)).filter (·.isElement) := by
  induction l with
  | nil => rfl
  | cons node l ih =>
      by_cases h : node.isElement
      · simp [h]
      · simp [h, ih]

/-- What follows `curNode` after the first element of a list is taken. -/
theorem filter_eq_cons {l rest : List XmlNode} {node : XmlNode}
    (h : l.dropWhile (!·.isElement) = node :: rest) :
    l.filter (·.isElement) = node :: rest.filter (·.isElement) := by
  have hnode : node.isElement = true := by
    have := List.head?_dropWhile_not (fun n : XmlNode => !n.isElement) l
    rw [h] at this
    simpa using this
  rw [filter_of_dropWhile, h, List.filter_cons_of_pos hnode]

/-- What `nextXmlNode` returns: the next of the elements to come. -/
def NodeSpec (xmlReadMemory : List UInt8 → ℤ → Option XmlDoc) (x : TwsXml)
    (elems : List XmlNode) (x' : TwsXml) (node : Option XmlNode) : Prop :=
  match node with
  | none => elems = []
  | some node => x'.pending.length ≤ x.pending.length ∧ elems = node :: x'.upcoming xmlReadMemory

/-- `curNode` does not matter to the buffer. -/
theorem Ready.setCurNode {c : List XmlNode} (h : x.Ready) : Ready { x with curNode := c } :=
  ⟨⟨h.size, h.len⟩, h.rest⟩

/-- **The loop over the roots returns** the first element of the documents
to come. -/
theorem nextElement_spec (h0 : xmlReadMemory [] 0 = none) {fuel : ℕ} : ∀ {x : TwsXml}, x.Ready →
    x.pending.length < fuel → ∃ x' node, x.nextElement xmlReadMemory fuel = .ok (x', node) ∧
      x'.Ready ∧
      NodeSpec xmlReadMemory x ((x.documents xmlReadMemory).flatMap elements) x' node := by
  induction fuel with
  | zero => exact fun _ h => absurd h (Nat.not_lt_zero _)
  | succ fuel ih =>
      intro x hx hfuel
      obtain ⟨x₁, root, hnext, hx₁, hroot⟩ := nextXmlRoot_spec h0 hx hfuel
      rw [nextElement, hnext, Exec.ok_bind]
      cases root with
      | none => exact ⟨x₁, none, rfl, hx₁, hroot⟩
      | some root =>
          obtain ⟨hlen, helems⟩ := hroot
          dsimp only
          split
          · -- The root has no element: the next one is looked at.
            rename_i hcur
            obtain ⟨x', node, hnode, hx', hspec⟩ := ih (x := { x₁ with curNode := [] })
              hx₁.setCurNode (by show x₁.pending.length < fuel; omega)
            refine ⟨x', node, by rw [hcur]; exact hnode, hx', ?_⟩
            rw [helems, filter_of_dropWhile, hcur]
            cases node with
            | none => exact hspec
            | some node => exact ⟨hspec.1.trans hlen.le, hspec.2⟩
          · rename_i node rest hcur
            refine ⟨_, some node, rfl, hx₁.setCurNode, hlen.le, ?_⟩
            rw [helems, filter_eq_cons hcur, hcur]
            rfl

/-- **`nextXmlNode` returns the next of the elements to come.** -/
theorem nextXmlNode_spec (h0 : xmlReadMemory [] 0 = none) {fuel : ℕ} (hx : x.Ready)
    (hfuel : x.pending.length < fuel) :
    ∃ x' node, x.nextXmlNode xmlReadMemory fuel = .ok (x', node) ∧ x'.Ready ∧
      NodeSpec xmlReadMemory x (x.upcoming xmlReadMemory) x' node := by
  unfold nextXmlNode
  dsimp only
  split
  · rename_i node rest hcur
    refine ⟨_, some node, rfl, hx.setCurNode, le_rfl, ?_⟩
    rw [upcoming, filter_eq_cons hcur, hcur]
    rfl
  · rename_i hcur
    obtain ⟨x', node, hnode, hx', hspec⟩ :=
      nextElement_spec h0 (x := { x with curNode := [] }) hx.setCurNode hfuel
    refine ⟨x', node, by rw [hcur]; exact hnode, hx', ?_⟩
    rw [upcoming, filter_of_dropWhile, hcur]
    exact hspec

/-- **The calls return all elements to come**, each once and in order. -/
theorem nextXmlNodes_eq (h0 : xmlReadMemory [] 0 = none) {fuel : ℕ} : ∀ {x : TwsXml}, x.Ready →
    x.pending.length + (x.upcoming xmlReadMemory).length < fuel →
    x.nextXmlNodes xmlReadMemory fuel = .ok (x.upcoming xmlReadMemory) := by
  induction fuel with
  | zero => exact fun _ h => absurd h (Nat.not_lt_zero _)
  | succ fuel ih =>
      intro x hx hfuel
      have hlt : x.pending.length < fuel + 1 := by omega
      obtain ⟨x', node, hnext, hx', hspec⟩ := nextXmlNode_spec h0 hx hlt
      rw [nextXmlNodes, hnext, Exec.ok_bind]
      cases node with
      | none =>
          rw [hspec]
          rfl
      | some node =>
          obtain ⟨hlen, hup⟩ := hspec
          rw [hup, List.length_cons] at hfuel
          dsimp only
          rw [ih hx' (by omega), Exec.ok_bind, hup]
          rfl

/-- **The whole stream is delivered.** Segments that are read, with form
feeds between them and maybe one at the end, come in any chunks: the calls
of `nextXmlNode` return the elements of their documents and end, and no
access is outside of the buffer. -/
theorem stream_delivered (h0 : xmlReadMemory [] 0 = none) (mem : ℕ → UInt8)
    (segs : List (List UInt8)) (trailing : Bool) {file : List Chunk}
    (hsep : ∀ s ∈ segs, FORM_FEED ∉ s)
    (hread : ∀ s ∈ segs.dropLast, (readSegment xmlReadMemory s).isSome)
    (hfile : content file =
      [FORM_FEED].intercalate segs ++ if trailing then [FORM_FEED] else []) :
    ∃ n, ∀ fuel, n < fuel → ((init mem).openFile file).nextXmlNodes xmlReadMemory fuel =
      .ok ((segs.filterMap (readSegment xmlReadMemory)).flatMap elements) := by
  have hup : ((init mem).openFile file).upcoming xmlReadMemory =
      (segs.filterMap (readSegment xmlReadMemory)).flatMap elements := by
    rw [upcoming, documents, pending_openFile, hfile,
      readable_intercalate (readSegment_nil h0) hsep hread]
    rfl
  exact ⟨_, fun fuel hfuel => hup ▸ nextXmlNodes_eq h0 ready_openFile hfuel⟩

/-- The bytes of a text. -/
def bytesOf (s : String) : List UInt8 := s.toList.map fun c => UInt8.ofNat c.toNat

/-- A reader of one document. -/
def readOne (s : List UInt8) (_ : ℤ) : Option XmlDoc :=
  if s = bytesOf "<TWSXML><a/></TWSXML>" then
    some ⟨[.element "TWSXML" [] [.element "a" [] []]]⟩
  else none

/-- Two documents, the first in two chunks. -/
theorem stream_delivered_two :
    ∃ n, ∀ fuel, n < fuel →
      ((init fun _ => 0).openFile [⟨bytesOf "<TWSXML><a", by decide, by decide⟩,
          ⟨bytesOf "/></TWSXML>" ++ FORM_FEED :: bytesOf "<TWSXML><a/></TWSXML>",
            by decide, by decide⟩]).nextXmlNodes readOne fuel =
        .ok [.element "a" [] [], .element "a" [] []] :=
  stream_delivered rfl _ [bytesOf "<TWSXML><a/></TWSXML>", bytesOf "<TWSXML><a/></TWSXML>"] false
    (by decide) (by decide) (by decide)

end TwsXml

end Twstools
