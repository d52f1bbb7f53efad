import FastapiTurbo.Lib.File
import FastapiTurbo.Multipart
import FastapiTurbo.Py

/-! Uploaded files (`multipart.rs`): the asynchronous `PyUploadFile` and the synchronous
`PySyncFile` views that its `file` gives out, over the same cells.  A call of a method is one
step.  Panics are `none`. -/
namespace FastapiTurbo.UploadFile

open Lib List
open Multipart (Bytes Text ParsedField)
open Py (PyErr)

structure Cells where
  data : Bytes
  cursor : Nat
  closed : Bool

structure PyUploadFile where
  filename : Option Text
  contentType : Option Text
  cells : Cells
  size : UInt64
  headerList : List (Text × Text)

def valueError (text : String) : PyErr :=
  ⟨["ValueError", "Exception", "BaseException", "object"], text⟩

def closedError : PyErr :=
  valueError "I/O operation on closed file."

def ensureOpen {α : Type} (cells : Cells)
    (body : Option (Cells × Except PyErr α)) : Option (Cells × Except PyErr α) :=
  if cells.closed then some (cells, .error closedError) else body

def slice (data : Bytes) (start stop : Nat) : Option Bytes :=
  if start ≤ stop ∧ stop ≤ data.length then some ((data.drop start).take (stop - start)) else none

def copyFromSlice (storage : Bytes) (start stop : Nat) (buf : Bytes) : Option Bytes :=
  if start ≤ stop ∧ stop ≤ storage.length ∧ buf.length = stop - start then
    some (storage.take start ++ buf ++ storage.drop stop)
  else none

def grow (storage : Bytes) (newEnd : Nat) : Bytes :=
  if newEnd > storage.length then storage ++ List.replicate (newEnd - storage.length) 0
  else storage

def toIsize (value : Int) : Int :=
  (value + 9223372036854775808) % 18446744073709551616 - 9223372036854775808

def readCells (cells : Cells) (size : Int) : Option (Cells × Except PyErr Bytes) :=
  ensureOpen cells <|
    let remaining := cells.data.length - cells.cursor
    let take := if size < 0 then remaining else min remaining size.toNat
    (slice cells.data cells.cursor (cells.cursor + take)).map fun bytes =>
      ({ cells with cursor := cells.cursor + take }, .ok bytes)

/-- The body of both `write` methods.  `buf` is what the argument is as bytes, or the error of
its extraction. -/
def writeCells (cells : Cells) (expected : String) (buf : Except String Bytes) :
    Option (Cells × Except PyErr Nat) :=
  ensureOpen cells <|
    match buf with
    | .error text => some (cells, .error (valueError (expected ++ text)))
    | .ok buf =>
      let pos := cells.cursor
      let newEnd := pos + buf.length
      (copyFromSlice (grow cells.data newEnd) pos newEnd buf).map fun data =>
        ({ cells with data := data, cursor := newEnd }, .ok buf.length)

def clampTo (cells : Cells) (target : Int) : Nat :=
  if target < 0 then 0 else min target.toNat cells.data.length

def tellCells (cells : Cells) : Option (Cells × Except PyErr Nat) :=
  ensureOpen cells (some (cells, .ok cells.cursor))

namespace PySyncFile

def read (cells : Cells) (size : Int) : Option (Cells × Except PyErr Bytes) :=
  readCells cells size

def write (cells : Cells) (buf : Except String Bytes) : Option (Cells × Except PyErr Nat) :=
  writeCells cells "UploadFile.file.write expects bytes-like, got error: " buf

def seekTarget (cells : Cells) (offset whence : Int) : Option Int :=
  match whence with
  | 0 => some offset
  | 1 => some (toIsize (toIsize cells.cursor + offset))
  | 2 => some (toIsize (toIsize cells.data.length + offset))
  | _ => none

def seek (cells : Cells) (offset whence : Int) : Option (Cells × Except PyErr Nat) :=
  ensureOpen cells <|
    match seekTarget cells offset whence with
    | none => some (cells, .error (valueError "invalid whence"))
    | some target =>
      let clamped := clampTo cells target
      some ({ cells with cursor := clamped }, .ok clamped)

def tell (cells : Cells) : Option (Cells × Except PyErr Nat) :=
  tellCells cells

def close (cells : Cells) : Cells :=
  { cells with closed := true }

end PySyncFile

namespace PyUploadFile

def read (upload : PyUploadFile) (size : Int) : Option (PyUploadFile × Except PyErr Bytes) :=
  (readCells upload.cells size).map fun step => ({ upload with cells := step.1 }, step.2)

def seek (upload : PyUploadFile) (offset : Int) : Option (PyUploadFile × Except PyErr Unit) :=
  (ensureOpen upload.cells
    (some ({ upload.cells with cursor := clampTo upload.cells offset }, .ok ()))).map fun step =>
      ({ upload with cells := step.1 }, step.2)

def tell (upload : PyUploadFile) : Option (PyUploadFile × Except PyErr Nat) :=
  (tellCells upload.cells).map fun step => ({ upload with cells := step.1 }, step.2)

def close (upload : PyUploadFile) : PyUploadFile :=
  { upload with cells := { upload.cells with closed := true } }

def write (upload : PyUploadFile) (buf : Except String Bytes) :
    Option (PyUploadFile × Except PyErr Unit) :=
  (writeCells upload.cells "UploadFile.write expects bytes-like, got error: " buf).map fun step =>
    match step.2 with
    | .error error => ({ upload with cells := step.1 }, .error error)
    | .ok written => ({ upload with cells := step.1, size := upload.size + .ofNat written }, .ok ())

def fromField (field : ParsedField) : PyUploadFile where
  filename := field.filename
  contentType := field.contentType
  cells := ⟨field.data, 0, false⟩
  size := .ofNat field.data.length
  headerList := field.headers

end PyUploadFile

/-- Through what an operation goes: the upload itself, or one of the views that `file` made. -/
inductive View where
  | upload
  | file (index : Nat)
  deriving DecidableEq

inductive Op where
  | read (view : View) (size : Int)
  | write (view : View) (buf : Except String Bytes)
  | seek (offset : Int)
  | seekFile (index : Nat) (offset whence : Int)
  | tell (view : View)
  | close (view : View)

def Op.isClose : Op → Bool
  | .close _ => true
  | _ => false

inductive Reply where
  | bytes (bytes : Bytes)
  | count (count : Nat)
  | none
  deriving DecidableEq

def onCells {α : Type} (upload : PyUploadFile) (reply : α → Reply)
    (step : Option (Cells × Except PyErr α)) : Option (PyUploadFile × Except PyErr Reply) :=
  step.map fun step => ({ upload with cells := step.1 }, step.2.map reply)

def perform (upload : PyUploadFile) : Op → Option (PyUploadFile × Except PyErr Reply)
  | .read .upload size => (upload.read size).map fun step => (step.1, step.2.map .bytes)
  | .read (.file _) size => onCells upload .bytes (PySyncFile.read upload.cells size)
  | .write .upload buf => (upload.write buf).map fun step => (step.1, step.2.map fun _ => .none)
  | .write (.file _) buf => onCells upload .count (PySyncFile.write upload.cells buf)
  | .seek offset => (upload.seek offset).map fun step => (step.1, step.2.map fun _ => .none)
  | .seekFile _ offset whence =>
    onCells upload .count (PySyncFile.seek upload.cells offset whence)
  | .tell .upload => upload.tell.map fun step => (step.1, step.2.map .count)
  | .tell (.file _) => onCells upload .count (PySyncFile.tell upload.cells)
  | .close .upload => some (upload.close, .ok .none)
  | .close (.file _) => some ({ upload with cells := PySyncFile.close upload.cells }, .ok .none)

def performAll : List Op → PyUploadFile →
    Option (PyUploadFile × List (Except PyErr Reply))
  | [], upload => some (upload, [])
  | op :: rest, upload =>
    (perform upload op).bind fun step =>
      (performAll rest step.1).map fun final => (final.1, step.2 :: final.2)

/-! One abstract file. -/

/-- The number of bytes that `read(size)` asks for, all of them when it is negative. -/
def askedFor (size : Int) : Option Nat :=
  if size < 0 then none else some size.toNat

def pointsTo (file : File UInt8) (offset whence : Int) : Option Int :=
  match whence with
  | 0 => some offset
  | 1 => some (file.position + offset)
  | 2 => some (file.buffer.length + offset)
  | _ => none

def performOpen (file : File UInt8) : Op → File UInt8 × Except PyErr Reply
  | .read _ size => (file.advance (askedFor size), .ok (.bytes (file.peek (askedFor size))))
  | .write .upload (.error text) =>
    (file, .error (valueError ("UploadFile.write expects bytes-like, got error: " ++ text)))
  | .write (.file _) (.error text) =>
    (file, .error (valueError ("UploadFile.file.write expects bytes-like, got error: " ++ text)))
  | .write .upload (.ok items) => (file.write items, .ok .none)
  | .write (.file _) (.ok items) => (file.write items, .ok (.count items.length))
  | .seek offset => (file.seek offset, .ok .none)
  | .seekFile _ offset whence =>
    match pointsTo file offset whence with
    | none => (file, .error (valueError "invalid whence"))
    | some target => (file.seek target, .ok (.count (file.seek target).position))
  | .tell _ => (file, .ok (.count file.position))
  | .close _ => (file.close, .ok .none)

def performFile (file : File UInt8) (op : Op) : File UInt8 × Except PyErr Reply :=
  if file.closed && !op.isClose then (file, .error closedError) else performOpen file op

def performAllFile : List Op → File UInt8 → File UInt8 × List (Except PyErr Reply)
  | [], file => (file, [])
  | op :: rest, file =>
    let step := performFile file op
    let final := performAllFile rest step.1
    (final.1, step.2 :: final.2)

def asyncBytes : Op → Except PyErr Reply → Nat
  | .write .upload (.ok buf), .ok _ => buf.length
  | _, _ => 0

def asyncTotal : List Op → List (Except PyErr Reply) → Nat
  | op :: ops, reply :: replies => asyncBytes op reply + asyncTotal ops replies
  | _, _ => 0

def inIsize (value : Int) : Prop :=
  -9223372036854775808 ≤ value ∧ value < 9223372036854775808

/-- The sum that a seek computes does not overflow. -/
def Op.Fits (file : File UInt8) : Op → Prop
  | .seekFile _ offset whence =>
    file.closed = false →
      (whence = 1 → inIsize (file.position + offset)) ∧
      (whence = 2 → inIsize (file.buffer.length + offset))
  | _ => True

def FitAll : List Op → File UInt8 → Prop
  | [], _ => True
  | op :: rest, file => op.Fits file ∧ FitAll rest (performFile file op).1

def cellsOf (file : File UInt8) : Cells :=
  ⟨file.buffer, file.position, file.closed⟩

theorem toIsize_of_inIsize {value : Int} (hv : inIsize value) : toIsize value = value := by
  obtain ⟨hlow, hh⟩ := hv
  rw [toIsize]
  omega

theorem toIsize_add (one other : Int) : toIsize (toIsize one + other) = toIsize (one + other) := by
  simp only [toIsize]
  omega

theorem ensureOpen_of_closed {α : Type} {cells : Cells} (hc : cells.closed = true)
    (body : Option (Cells × Except PyErr α)) :
    ensureOpen cells body = some (cells, .error closedError) := by
  rw [ensureOpen, if_pos hc]

theorem ensureOpen_of_open {α : Type} {cells : Cells} (ho : cells.closed = false)
    (body : Option (Cells × Except PyErr α)) : ensureOpen cells body = body := by
  rw [ensureOpen, if_neg (by rw [ho]; decide)]

private theorem slice_of_le (file : File UInt8) {count : Nat}
    (hc : count ≤ file.buffer.length - file.position) :
    slice file.buffer file.position (file.position + count) =
      some ((file.buffer.drop file.position).take count) := by
  have hle := file.position_le
  rw [slice, if_pos ⟨Nat.le_add_right _ _, by omega⟩, Nat.add_sub_cancel_left]

variable {file : File UInt8}

theorem readCells_cellsOf (ho : file.closed = false) (size : Int) :
    readCells (cellsOf file) size =
      some (cellsOf (file.advance (askedFor size)), .ok (file.peek (askedFor size))) := by
  rw [readCells, ensureOpen_of_open ho, askedFor]
  dsimp only [cellsOf]
  by_cases hs : size < 0
  · rw [if_pos hs, if_pos hs, slice_of_le file (Nat.le_refl _)]
    simp [File.advance, File.peek]
  · rw [if_neg hs, if_neg hs, slice_of_le file (Nat.min_le_left _ _)]
    simp [File.advance, File.peek, Nat.min_comm]

theorem le_length_grow (storage : Bytes) (newEnd : Nat) :
    newEnd ≤ (grow storage newEnd).length := by
  unfold grow
  split
  · rw [length_append, length_replicate]
    omega
  · omega

theorem take_grow {storage : Bytes} {pos : Nat} (hpos : pos ≤ storage.length) (newEnd : Nat) :
    (grow storage newEnd).take pos = storage.take pos := by
  unfold grow
  split
  · exact take_append_of_le_length hpos
  · rfl

private theorem drop_grow (storage : Bytes) (newEnd : Nat) :
    (grow storage newEnd).drop newEnd = storage.drop newEnd := by
  unfold grow
  split
  · rename_i hl
    rw [drop_of_length_le (Nat.le_of_lt hl), drop_of_length_le]
    rw [length_append, length_replicate]
    omega
  · rfl

theorem writeCells_cellsOf (ho : file.closed = false) (expected : String) (buf : Bytes) :
    writeCells (cellsOf file) expected (.ok buf) =
      some (cellsOf (file.write buf), .ok buf.length) := by
  have hf : file.position ≤ file.position + buf.length ∧
      file.position + buf.length ≤ (grow file.buffer (file.position + buf.length)).length ∧
      buf.length = file.position + buf.length - file.position :=
    ⟨Nat.le_add_right _ _, le_length_grow _ _, by omega⟩
  rw [writeCells, ensureOpen_of_open ho]
  dsimp only [cellsOf]
  rw [copyFromSlice, if_pos hf, take_grow file.position_le, drop_grow]
  rfl

theorem clampTo_cellsOf (file : File UInt8) (target : Int) :
    clampTo (cellsOf file) target = (file.seek target).position := by
  unfold clampTo
  dsimp only [cellsOf, File.seek]
  split <;> omega

theorem moved_cellsOf (file : File UInt8) (target : Int) :
    { cellsOf file with cursor := clampTo (cellsOf file) target } = cellsOf (file.seek target) := by
  rw [clampTo_cellsOf]
  rfl

variable {upload : PyUploadFile} {op : Op}

/-- On a closed file every method but `close` raises and changes nothing. -/
theorem perform_of_closed (hc : upload.cells.closed = true) (hop : op.isClose = false) :
    perform upload op = some (upload, .error closedError) := by
  cases op with
  | read view size =>
    cases view <;>
      simp [perform, PyUploadFile.read, PySyncFile.read, onCells, readCells,
        ensureOpen_of_closed hc, Except.map]
  | write view buf =>
    cases view <;>
      simp [perform, PyUploadFile.write, PySyncFile.write, onCells, writeCells,
        ensureOpen_of_closed hc, Except.map]
  | seek offset =>
    simp [perform, PyUploadFile.seek, ensureOpen_of_closed hc, Except.map]
  | seekFile index offset whence =>
    simp [perform, PySyncFile.seek, onCells, ensureOpen_of_closed hc, Except.map]
  | tell view =>
    cases view <;>
      simp [perform, PyUploadFile.tell, PySyncFile.tell, onCells, tellCells,
        ensureOpen_of_closed hc, Except.map]
  | close view => cases hop

theorem seekTarget_cellsOf (ho : file.closed = false) {index : Nat} {offset whence : Int}
    (hf : (Op.seekFile index offset whence).Fits file) :
    PySyncFile.seekTarget (cellsOf file) offset whence = pointsTo file offset whence := by
  obtain ⟨hc, hend⟩ := hf ho
  unfold PySyncFile.seekTarget pointsTo
  split
  · rfl
  · rw [toIsize_add]
    exact congrArg some (toIsize_of_inIsize (hc rfl))
  · rw [toIsize_add]
    exact congrArg some (toIsize_of_inIsize (hend rfl))
  · rfl

theorem perform_close (hc : upload.cells = cellsOf file) (view : View) :
    perform upload (.close view) =
      some ({ upload with cells := cellsOf file.close }, .ok .none) := by
  cases view <;>
    simp [perform, PyUploadFile.close, PySyncFile.close, hc, cellsOf, File.close]

private theorem perform_of_open (hc : upload.cells = cellsOf file) (ho : file.closed = false)
    (hf : op.Fits file) :
    perform upload op =
      some ({ upload with
          cells := cellsOf (performOpen file op).1
          size := upload.size + .ofNat (asyncBytes op (performOpen file op).2) },
        (performOpen file op).2) := by
  have hcellsOpen : (cellsOf file).closed = false := ho
  cases op with
  | read view size =>
    cases view <;>
      simp [perform, PyUploadFile.read, PySyncFile.read, onCells, hc, readCells_cellsOf ho,
        performOpen, asyncBytes, Except.map]
  | write view buf =>
    cases buf with
    | error text =>
      cases view <;>
        simp [perform, PyUploadFile.write, PySyncFile.write, onCells, hc, writeCells,
          ensureOpen_of_open hcellsOpen, performOpen, asyncBytes, Except.map]
    | ok buf =>
      cases view <;>
        simp [perform, PyUploadFile.write, PySyncFile.write, onCells, hc,
          writeCells_cellsOf ho, performOpen, asyncBytes, Except.map]
  | seek offset =>
    simp [perform, PyUploadFile.seek, hc, ensureOpen_of_open hcellsOpen, moved_cellsOf,
      performOpen, asyncBytes, Except.map]
  | seekFile index offset whence =>
    rw [perform, PySyncFile.seek, hc, ensureOpen_of_open hcellsOpen, seekTarget_cellsOf ho hf,
      performOpen]
    cases pointsTo file offset whence with
    | none => simp [onCells, asyncBytes, Except.map]
    | some target =>
      simp only [moved_cellsOf]
      simp [onCells, clampTo_cellsOf, asyncBytes, Except.map]
  | tell view =>
    cases view <;>
      simp [perform, PyUploadFile.tell, PySyncFile.tell, hc, tellCells,
        ensureOpen_of_open hcellsOpen, performOpen, asyncBytes]
    all_goals rfl
  | close view =>
    rw [perform_close hc]
    simp [performOpen, asyncBytes]

private theorem perform_eq (hcells : upload.cells = cellsOf file) (hf : op.Fits file) :
    perform upload op =
      some ({ upload with
          cells := cellsOf (performFile file op).1
          size := upload.size + .ofNat (asyncBytes op (performFile file op).2) },
        (performFile file op).2) := by
  cases hc : file.closed with
  | false =>
    rw [performFile, hc]
    exact perform_of_open hcells hc hf
  | true =>
    cases hop : op.isClose with
    | false =>
      have hs : performFile file op = (file, .error closedError) := by
        rw [performFile, hc, hop]
        rfl
      have hcount : asyncBytes op (.error closedError) = 0 := by
        unfold asyncBytes
        split <;> simp_all
      rw [hs, perform_of_closed (by rw [hcells]; exact hc) hop, hcount, ← hcells]
      simp
    | true =>
      cases op with
      | close view =>
        rw [perform_close hcells, performFile, hc]
        simp [Op.isClose, performOpen, asyncBytes]
      | _ => cases hop

theorem performAll_eq {ops : List Op} (hc : upload.cells = cellsOf file) (hf : FitAll ops file) :
    performAll ops upload =
      some ({ upload with
          cells := cellsOf (performAllFile ops file).1
          size := upload.size + .ofNat (asyncTotal ops (performAllFile ops file).2) },
        (performAllFile ops file).2) := by
  induction ops generalizing upload file with
  | nil =>
    rw [performAllFile, ← hc]
    simp [performAll, asyncTotal]
  | cons op rest ih =>
    rw [performAll, perform_eq hc hf.1, Option.bind_some, ih rfl hf.2]
    simp only [Option.map_some, performAllFile, asyncTotal, UInt64.ofNat_add, UInt64.add_assoc]

private theorem closed_performFile (hc : file.closed = true) (op : Op) :
    (performFile file op).1.closed = true := by
  cases hop : op.isClose with
  | false =>
    rw [performFile, hc, hop]
    exact hc
  | true =>
    cases op with
    | close view =>
      rw [performFile, hc]
      rfl
    | _ => cases hop

private theorem closed_performAllFile {ops : List Op}
    (hc : file.closed = true ∨ ∃ view, .close view ∈ ops) :
    (performAllFile ops file).1.closed = true := by
  induction ops generalizing file with
  | nil => simpa [performAllFile] using hc
  | cons op rest ih =>
    apply ih
    rcases hc with hc | ⟨view, hv⟩
    · exact .inl (closed_performFile hc op)
    · rcases mem_cons.1 hv with rfl | hr
      · refine .inl ?_
        rw [performFile, Op.isClose, Bool.not_true, Bool.and_false]
        rfl
      · exact .inr ⟨view, hr⟩

/-- Whatever is done with an upload and its views, in any order, is done with one file; no
slice is out of range, nothing but another `close` works after a `close`, and `size` counts
the bytes written through the upload, modulo the values of a `usize`. -/
theorem upload_is_one_file (field : ParsedField) (ops : List Op)
    (hfits : FitAll ops (File.ofItems field.data)) :
    ∃ upload, performAll ops (PyUploadFile.fromField field) =
        some (upload, (performAllFile ops (File.ofItems field.data)).2) ∧
      upload.cells = cellsOf (performAllFile ops (File.ofItems field.data)).1 ∧
      upload.cells.cursor ≤ upload.cells.data.length ∧
      upload.size = .ofNat (field.data.length +
        asyncTotal ops (performAllFile ops (File.ofItems field.data)).2) ∧
      ((∃ view, .close view ∈ ops) → upload.cells.closed = true) ∧
      (upload.cells.closed = true → ∀ op : Op, op.isClose = false →
        perform upload op = some (upload, .error closedError)) := by
  refine ⟨_, performAll_eq rfl hfits, rfl, File.position_le _, (UInt64.ofNat_add _ _).symm, ?_, ?_⟩
  · intro hc
    exact closed_performAllFile (.inr hc)
  · intro hclosed op hop
    exact perform_of_closed hclosed hop

/-- Reads, writes and seeks through both. -/
theorem mixed_views_are_one_file :
    ∃ upload, performAll [.write .upload (.ok [1, 2]), .seekFile 0 (-1) 1, .read (.file 1) (-1),
        .close (.file 0), .tell .upload]
        (PyUploadFile.fromField ⟨[], none, none, [7, 8, 9], []⟩) =
      some (upload, [.ok .none, .ok (.count 1), .ok (.bytes [2, 9]), .ok .none,
        .error closedError]) ∧
      upload.size = 5 := by
  have hf : FitAll [.write .upload (.ok [1, 2]), .seekFile 0 (-1) 1, .read (.file 1) (-1),
      .close (.file 0), .tell .upload] (File.ofItems [7, 8, 9]) := by
    refine ⟨trivial, fun _ => ⟨fun _ => ?_, fun hw => ?_⟩, trivial, trivial, trivial, trivial⟩
    · exact ⟨by decide, by decide⟩
    · cases hw
  obtain ⟨upload, hrun, -, -, hs, -⟩ :=
    upload_is_one_file ⟨[], none, none, [7, 8, 9], []⟩ _ hf
  exact ⟨upload, hrun, hs⟩

end FastapiTurbo.UploadFile
