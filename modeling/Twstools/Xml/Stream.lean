import Twstools.Xml.Node
import Twstools.Common.Memory
import Twstools.Assertion
/-!
# The reader of xml streams

A file is a stream of documents, form feeds between them. `nextXmlDoc`
keeps what it has read in a buffer: it reads chunks until it finds a form
feed, has the document in front of it parsed, and moves what is behind to
the start. `nextXmlRoot` and `nextXmlNode` go through the documents and the
elements of their roots.

The file is the list of chunks `fread` will return. Memory is never short,
so `buf_size` and `buf_len`, which are `long`, have no limit here. A
document is a value; when it is freed does not matter.
-/

namespace Twstools

/-- The separator, `'\f'`. -/
def FORM_FEED : UInt8 := 12

/-- `CHUNK_SIZE`. -/
def CHUNK_SIZE : ℕ := 1024

/-- `BUF_SIZE`. -/
def BUF_SIZE : ℕ := 1024 * 1024

/-- What a call of `fread` gets before the end of the file. -/
structure Chunk where
  bytes : List UInt8
  pos : 0 < bytes.length
  le : bytes.length ≤ CHUNK_SIZE

/-- Conversion to `int` where the value is meant to be kept. -/
def narrow {Site : Type} (n : ℕ) : Exec Site ℕ :=
  if n ≤ INT_MAX then .ok n else .error .overflow

/-- `find_form_feed(s, n)`: `n` if there is none. -/
def findFormFeed (buf : Block UInt8) (s : ℕ) : ℕ → Exec Assertion ℕ
  | 0 => pure 0
  | n + 1 => do
      let c ← buf.read s
      if c = FORM_FEED then pure 0
      else do
        let i ← findFormFeed buf (s + 1) n
        pure (i + 1)

/-- `TwsXml`. `curNode` is the node with the ones after it, empty for null;
`file` is null before `openFile`. -/
structure TwsXml where
  file : Option (List Chunk)
  bufSize : ℕ
  bufLen : ℕ
  buf : Block UInt8
  curNode : List XmlNode

namespace TwsXml

/-- `resize_buf`. -/
def resizeBuf (x : TwsXml) : TwsXml :=
  let bufSize := x.bufSize + BUF_SIZE
  { x with bufSize := bufSize, buf := x.buf.realloc bufSize }

/-- `TwsXml()`. The memory is what `malloc` gives. -/
def init (mem : ℕ → UInt8) : TwsXml :=
  resizeBuf { file := none, bufSize := 0, bufLen := 0, buf := ⟨0, mem⟩, curNode := [] }

/-- `openFile`, when it succeeds. -/
def openFile (x : TwsXml) (file : List Chunk) : TwsXml := { x with file := some file }

/-- The resize inside of the loop of `nextXmlDoc`. -/
def makeRoom (x : TwsXml) : TwsXml :=
  if x.bufSize ≤ x.bufLen + CHUNK_SIZE then x.resizeBuf else x

/-- The loop of `nextXmlDoc`, on the chunks still to come. `cp` is an index
into the buffer; the result is it and `jump_ff`. -/
def scan : List Chunk → TwsXml → ℕ → ℕ → Exec Assertion (TwsXml × ℕ × ℕ)
  | file, x, cp, tmpLen => do
      let ff ← findFormFeed x.buf cp tmpLen
      if ff < tmpLen then pure ({ x with file := some file }, cp + ff, 1)
      else
        let cp := if x.bufSize ≤ x.bufLen + CHUNK_SIZE then x.bufLen else cp + tmpLen
        let x := x.makeRoom
        match file with
        | [] => pure ({ x with file := some [] }, cp, 0)
        | chunk :: file => do
            let buf ← x.buf.write cp chunk.bytes
            let tmpLen := chunk.bytes.length
            scan file { x with buf := buf, bufLen := x.bufLen + tmpLen } cp tmpLen

variable (xmlReadMemory : List UInt8 → ℤ → Option XmlDoc)

/-- `nextXmlDoc`. The size that `xmlReadMemory` gets is an `int`. -/
def nextXmlDoc (x : TwsXml) : Exec Assertion (TwsXml × Option XmlDoc) :=
  match x.file with
  | none => pure (x, none)
  | some file => do
      let tmpLen ← narrow x.bufLen
      let (x, cp, jumpFf) ← scan file x 0 tmpLen
      let bytes ← x.buf.view 0 cp
      let doc := xmlReadMemory bytes (toInt cp)
      -- A negative length would be one too large for `memmove`.
      if x.bufLen < cp + jumpFf then .error .badAccess
      else do
        let bufLen := x.bufLen - (cp + jumpFf)
        let buf ← x.buf.move 0 (cp + jumpFf) bufLen
        pure ({ x with buf := buf, bufLen := bufLen }, doc)

/-- `nextXmlRoot`. A document without root or with an unknown one is passed
over. -/
def nextXmlRoot : ℕ → TwsXml → Exec Assertion (TwsXml × Option XmlNode)
  | 0, _ => .error .unfinished
  | fuel + 1, x => do
      let (x, curDoc) ← x.nextXmlDoc xmlReadMemory
      match curDoc with
      | none => pure (x, none)
      | some curDoc =>
          match curDoc.getRootElement with
          | none => nextXmlRoot fuel x
          | some root => do
              ensure root.isElement .nextXmlRootType
              if root.is "TWSXML" then pure (x, some root) else nextXmlRoot fuel x

/-- The loop of `nextXmlNode` over the roots, for one with an element. -/
def nextElement : ℕ → TwsXml → Exec Assertion (TwsXml × Option XmlNode)
  | 0, _ => .error .unfinished
  | fuel + 1, x => do
      let (x, root) ← x.nextXmlRoot xmlReadMemory (fuel + 1)
      match root with
      | none => pure (x, none)
      | some root =>
          let curNode := root.children.dropWhile (!·.isElement)
          let x := { x with curNode := curNode }
          match curNode with
          | [] => nextElement fuel x
          | node :: _ => pure (x, some node)

/-- `nextXmlNode`. -/
def nextXmlNode (fuel : ℕ) (x : TwsXml) : Exec Assertion (TwsXml × Option XmlNode) :=
  let curNode := x.curNode.tail.dropWhile (!·.isElement)
  let x := { x with curNode := curNode }
  match curNode with
  | node :: _ => pure (x, some node)
  | [] => x.nextElement xmlReadMemory fuel

/-- What the loops over a file get, `while( (xn = file.nextXmlNode()) != NULL )`. -/
def nextXmlNodes : ℕ → TwsXml → Exec Assertion (List XmlNode)
  | 0, _ => .error .unfinished
  | fuel + 1, x => do
      let (x, xn) ← x.nextXmlNode xmlReadMemory (fuel + 1)
      match xn with
      | none => pure []
      | some xn => do
          let xns ← nextXmlNodes fuel x
          pure (xn :: xns)

end TwsXml

end Twstools
