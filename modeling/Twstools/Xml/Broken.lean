import Twstools.Xml.Delivery
/-!
# A segment that cannot be parsed

`nextXmlDoc` returns null at the end of the file, and it returns null for a
segment the parser rejects, so its callers take both for the end. What a
stream with broken segments delivers is what stands before the first of
them.
-/

namespace Twstools

namespace TwsXml

variable {xmlReadMemory : List UInt8 → ℤ → Option XmlDoc}

/-- What is to come of a new reader ends at the first broken segment. -/
theorem upcoming_openFile (h0 : xmlReadMemory [] 0 = none) {mem : ℕ → UInt8}
    {segs : List (List UInt8)} {trailing : Bool} {file : List Chunk}
    (hsep : ∀ s ∈ segs, FORM_FEED ∉ s)
    (hfile : content file =
      [FORM_FEED].intercalate segs ++ if trailing then [FORM_FEED] else []) :
    ((init mem).openFile file).upcoming xmlReadMemory =
      ((segs.takeWhile fun s => (readSegment xmlReadMemory s).isSome).filterMap
        (readSegment xmlReadMemory)).flatMap elements := by
  rw [upcoming, documents, pending_openFile, hfile,
    readable_intercalate_takeWhile (readSegment_nil h0) hsep]
  rfl

/-- **A broken segment hides what is behind it.** A stream is delivered in
full exactly if no segment from the first broken one on has an element to
deliver. -/
theorem nextXmlNodes_eq_iff (h0 : xmlReadMemory [] 0 = none) (mem : ℕ → UInt8)
    (segs : List (List UInt8)) (trailing : Bool) {file : List Chunk}
    (hsep : ∀ s ∈ segs, FORM_FEED ∉ s)
    (hfile : content file =
      [FORM_FEED].intercalate segs ++ if trailing then [FORM_FEED] else []) :
    ∃ n, ∀ fuel, n < fuel →
      (((init mem).openFile file).nextXmlNodes xmlReadMemory fuel =
          .ok ((segs.filterMap (readSegment xmlReadMemory)).flatMap elements) ↔
        ∀ s ∈ segs.dropWhile fun s => (readSegment xmlReadMemory s).isSome,
          ∀ doc, readSegment xmlReadMemory s = some doc → elements doc = []) := by
  let x := (init mem).openFile file
  refine ⟨x.pending.length + (x.upcoming xmlReadMemory).length, fun fuel hfuel => ?_⟩
  rw [nextXmlNodes_eq h0 ready_openFile hfuel, upcoming_openFile h0 hsep hfile,
    ← flatMap_takeWhile_iff]
  exact ⟨fun h => Except.ok.inj h, fun h => congrArg _ h⟩

/-- The text of a document that `readOne` reads. -/
def intact : List UInt8 := bytesOf "<TWSXML><a/></TWSXML>"

/-- The same, cut off. -/
def cutOff : List UInt8 := bytesOf "<TWSXML><a"

/-- A file cut off by a killed tool, and written on. -/
def cutOffFile : List Chunk :=
  [⟨intact ++ FORM_FEED :: cutOff, by decide, by decide⟩,
    ⟨FORM_FEED :: intact, by decide, by decide⟩]

/-- Behind a document that is intact nothing is hidden by one that is cut off. -/
theorem nextXmlNodes_eq_iff_cutOff :
    ∃ n, ∀ fuel, n < fuel →
      (((init fun _ => 0).openFile cutOffFile).nextXmlNodes readOne fuel =
          .ok (([intact, cutOff, intact].filterMap (readSegment readOne)).flatMap elements) ↔
        ∀ s ∈ [intact, cutOff, intact].dropWhile fun s => (readSegment readOne s).isSome,
          ∀ doc, readSegment readOne s = some doc → elements doc = []) :=
  nextXmlNodes_eq_iff rfl _ [intact, cutOff, intact] false (by decide) (by decide)

/-- **The last document is lost**, and the reader does not fail. -/
theorem cutOff_hides :
    ((init fun _ => 0).openFile cutOffFile).nextXmlNodes readOne 60 =
        .ok [.element "a" [] []] ∧
      ([intact, cutOff, intact].filterMap (readSegment readOne)).flatMap elements =
        [.element "a" [] [], .element "a" [] []] := by
  constructor
  · have hup : ((init fun _ => 0).openFile cutOffFile).upcoming readOne =
        [.element "a" [] []] := by
      have hcontent : content cutOffFile = [FORM_FEED].intercalate [intact, cutOff, intact] ++
          if false then [FORM_FEED] else [] := by decide
      rw [upcoming_openFile rfl (by decide) hcontent]
      rfl
    rw [nextXmlNodes_eq rfl ready_openFile (by rw [hup]; decide), hup]
  · rfl

end TwsXml

end Twstools
