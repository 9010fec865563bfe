import Mathlib.Data.List.Nodup

/-!
# The CSV input reader: which cell each input stream reads

Model of `ColumnMapping` and of the record handling of `InputReader`
(`rtlola/src/basics/io_handler.rs:38-175`): `from_header`, `stream_ix_for_col_ix`,
`time_is_stream`, `num_columns`, `num_streams`, `InputReader::from`, `read_blocking`,
`str_ref_for_stream_ix`, `str_ref_for_time` and `time_index`.

* A `StringRecord` is a `List String`, a header or a record alike.
* The panic of `from_header` for a stream without a column is `.error` with its message.
  The other panics (`assert_eq!`, `assert!`, an index out of bounds) are `none`.
* `col2str[*header_ix] = Some(str_ix)` is `List.set`. The two agree because `position` returns
  an index below `header.len()`, the length of `col2str`; `getElem?_col2strOf` counts on that bound.
* `read_blocking` is given what the csv parser found: `some record`, or `none` at the end of the
  input. `readRecord` is what `Reader::read_record` of the csv crate then does with it: the reader
  is not `flexible`, so a record whose length differs from the header row's is stored and reported
  as `Err(UnequalLengths)`, which `?` returns; at the end of the input the record is cleared and
  the result is `Ok(false)`. The header row's length is `mapping.num_columns()` for every reader:
  `from` is the only constructor, and `from_header` gives `col2str` one entry per header column.
  I/O and UTF-8 errors and the `reading_delay` sleep are outside the model. Both
  `cfg!(debug_assertion)` blocks are dead code: the configuration flag is `debug_assertions`, so
  `cfg!(debug_assertion)` is always false.

Results:
* `fromHeader_eq`: what `from_header` computes: for each stream the first column titled with its
  name, or the panic for the first stream without one.
* `fromHeader_spec`: for distinct stream names that all occur in the header, `from_header`
  returns a mapping meeting `ColumnMapping.Spec`: each stream gets the first column titled with its
  name, no two streams share a column, and `col2str` inverts `str2col`. After every read of a record
  of the asserted length, each stream reads the cell under its column.
* `fromHeader_error_iff`: `from_header` panics exactly when a stream has no column, with the
  message naming the first such stream.
* `timeIsStream_fromHeader`: in the mapping `from_header` builds, the time column is a stream's
  column exactly when its title is a stream's name.
* `readAll_spec`: no run of `read_blocking` panics: csv reports a record of another length before
  the `assert_eq!` on `num_columns` could fail. Along the run the mapping stays, and the reader
  holds the last record read, or the empty record after the end of the input.
-/

namespace RTLola.Io

/-! ## `ColumnMapping` -/

/-- `ColumnMapping`. -/
structure ColumnMapping where
  /-- The input column of each stream index. -/
  str2col : List Nat
  /-- The input stream index of each column. -/
  col2str : List (Option Nat)
  /-- The column of the time, if any. -/
  timeIx : Option Nat
  deriving DecidableEq, Repr

/-- The panic message of `from_header` for a stream `name` that has no column. -/
def headerMissing (name : String) : String :=
  "CVS header does not contain an entry for stream " ++ name ++ "."

/-- The column of one stream: `header.iter().position(|entry| &entry == name)`, or the panic. -/
def columnOf (header : List String) (name : String) : Except String Nat :=
  match header.findIdx? (· == name) with
  | some c => .ok c
  | none => .error (headerMissing name)

/-- The loop body of `from_header`: `col2str[*header_ix] = Some(str_ix)`. -/
def setColumn (col2str : List (Option Nat)) (p : Nat × Nat) : List (Option Nat) :=
  col2str.set p.2 (some p.1)

/-- The loop of `from_header` that fills `col2str`. -/
def col2strOf (numColumns : Nat) (str2col : List Nat) : List (Option Nat) :=
  str2col.enum.foldl setColumn (List.replicate numColumns none)

/-- The titles `from_header` takes for the time column. -/
def isTimeName (name : String) : Bool :=
  name == "time" || name == "ts" || name == "timestamp"

/-- `ColumnMapping::from_header`. -/
def ColumnMapping.fromHeader (names header : List String) : Except String ColumnMapping := do
  let str2col ← names.mapM (columnOf header)
  let col2str := col2strOf header.length str2col
  let timeIx := header.findIdx? isTimeName
  pure { str2col, col2str, timeIx }

/-- `ColumnMapping::stream_ix_for_col_ix`. -/
def ColumnMapping.streamIxForColIx (m : ColumnMapping) (colIx : Nat) : Option (Option Nat) :=
  m.col2str[colIx]?

/-- `ColumnMapping::time_is_stream`. -/
def ColumnMapping.timeIsStream (m : ColumnMapping) : Option Bool :=
  match m.timeIx with
  | none => some false
  | some colIx => m.col2str[colIx]?.map Option.isSome

/-- `ColumnMapping::num_columns`. -/
def ColumnMapping.numColumns (m : ColumnMapping) : Nat := m.col2str.length

/-- `ColumnMapping::num_streams`. -/
def ColumnMapping.numStreams (m : ColumnMapping) : Nat := m.str2col.length

/-! ## `InputReader` -/

/-- The state of `InputReader` that its record handling reads. -/
structure InputReader where
  mapping : ColumnMapping
  record : List String
  deriving DecidableEq, Repr

/-- `InputReader::from`, given the header the reader read. -/
def InputReader.from (names header : List String) : Except String InputReader := do
  let mapping ← ColumnMapping.fromHeader names header
  pure { mapping, record := [] }

/-- The error of `read_record` that the model covers: `ErrorKind::UnequalLengths`. -/
inductive CsvError where
  | unequalLengths (expectedLen len : Nat)
  deriving DecidableEq, Repr

/-- `Reader::read_record` of a csv reader that is not `flexible`, given what the parser found
(`none` at the end of the input) and the length of the header row: the record it leaves in its
argument, and its result. -/
def readRecord (expectedLen : Nat) : Option (List String) → List String × Except CsvError Bool
  | none => ([], .ok false)
  | some record => (record,
      if record.length = expectedLen then .ok true
      else .error (.unequalLengths expectedLen record.length))

/-- `InputReader::read_blocking`, given what the csv parser found (`none` at the end of the
input): the result, `Err` propagated by `?`, and the new reader. -/
def InputReader.readBlocking (r : InputReader) (read : Option (List String)) :
    Option (Except CsvError Bool × InputReader) :=
  let rr := readRecord r.mapping.numColumns read
  let r := { r with record := rr.1 }
  match rr.2 with
  | .error e => some (.error e, r)
  | .ok false => some (.ok false, r)
  | .ok true => if r.record.length = r.mapping.numColumns then some (.ok true, r) else none

/-- A run of reads: `read_blocking` on each of `reads` in turn; `none` when one of them panics. -/
def InputReader.readAll (r : InputReader) (reads : List (Option (List String))) :
    Option InputReader :=
  reads.foldlM (fun r read => (r.readBlocking read).map Prod.snd) r

/-- `InputReader::str_ref_for_stream_ix`. -/
def InputReader.strRefForStreamIx (r : InputReader) (streamIx : Nat) : Option String := do
  let colIx ← r.mapping.str2col[streamIx]?
  r.record[colIx]?

/-- `InputReader::time_index`. -/
def InputReader.timeIndex (r : InputReader) : Option Nat := r.mapping.timeIx

/-- `InputReader::str_ref_for_time`. -/
def InputReader.strRefForTime (r : InputReader) : Option String := do
  let colIx ← r.timeIndex
  r.record[colIx]?

/-! ## What `from_header` computes -/

/-- The first stream of `names` without a column. -/
def firstMissing (names header : List String) : Option String :=
  names.find? fun name => !header.contains name

theorem columnOf_of_mem {header : List String} {name : String} (h : name ∈ header) :
    columnOf header name = .ok (header.findIdx (· == name)) := by
  have : header.findIdx? (· == name) = some (header.findIdx (· == name)) :=
    List.findIdx?_eq_some_of_exists ⟨name, h, by simp⟩
  rw [columnOf, this]

theorem columnOf_of_not_mem {header : List String} {name : String} (h : name ∉ header) :
    columnOf header name = .error (headerMissing name) := by
  have : header.findIdx? (· == name) = none := List.findIdx?_eq_none_iff.mpr fun x hx =>
    beq_eq_false_iff_ne.mpr (ne_of_mem_of_not_mem hx h)
  rw [columnOf, this]

/-- The stream loop of `from_header`: the first column of each name, or the panic for the first
name without one. -/
theorem mapM_columnOf (header : List String) :
    ∀ names : List String, names.mapM (columnOf header) =
      match firstMissing names header with
      | none => .ok (names.map fun name => header.findIdx (· == name))
      | some name => .error (headerMissing name)
  | [] => rfl
  | name :: names => by
    by_cases h : name ∈ header
    · have hfm : firstMissing (name :: names) header = firstMissing names header := by
        simp [firstMissing, List.find?_cons, h]
      rw [List.mapM_cons, columnOf_of_mem h, hfm, mapM_columnOf header names]
      cases firstMissing names header <;> rfl
    · have hfm : firstMissing (name :: names) header = some name := by
        simp [firstMissing, List.find?_cons, h]
      rw [List.mapM_cons, columnOf_of_not_mem h, hfm]
      rfl

/-- **`from_header` fails exactly when a stream has no column**, with the panic message naming
the first such stream; otherwise each stream gets the first column titled with its name. -/
theorem fromHeader_eq (names header : List String) :
    ColumnMapping.fromHeader names header =
      match firstMissing names header with
      | none =>
        let str2col := names.map fun name => header.findIdx (· == name)
        .ok ⟨str2col, col2strOf header.length str2col, header.findIdx? isTimeName⟩
      | some name => .error (headerMissing name) := by
  rw [ColumnMapping.fromHeader, mapM_columnOf]
  cases firstMissing names header <;> rfl

/-- **`from_header` panics exactly when a stream has no column**, with the message naming the
first such stream. -/
theorem fromHeader_error_iff (names header : List String) (msg : String) :
    ColumnMapping.fromHeader names header = .error msg ↔
      ∃ name, firstMissing names header = some name ∧ msg = headerMissing name := by
  rw [fromHeader_eq]
  cases firstMissing names header with
  | none => simp
  | some name =>
    constructor
    · intro h
      cases h
      exact ⟨name, rfl, rfl⟩
    · rintro ⟨_, ⟨⟩, rfl⟩
      rfl

theorem firstMissing_eq_none {names header : List String} :
    firstMissing names header = none ↔ ∀ name ∈ names, name ∈ header := by
  simp [firstMissing]

/-! ## The fill loop of `col2str` -/

@[simp] theorem length_foldl_setColumn (l : List (Nat × Nat)) (acc : List (Option Nat)) :
    (l.foldl setColumn acc).length = acc.length := by
  induction l generalizing acc <;> simp [setColumn, *]

/-- For distinct columns, the loop stores at each column of `l` (in bounds) its stream, and leaves
every other entry as it was. -/
theorem getElem?_foldl_setColumn {l : List Nat} (hnd : l.Nodup) (base : Nat)
    (acc : List (Option Nat)) (c : Nat) :
    ((l.enumFrom base).foldl setColumn acc)[c]? =
      if c ∈ l ∧ c < acc.length then some (some (base + l.indexOf c)) else acc[c]? := by
  induction l generalizing base acc with
  | nil => simp
  | cons x xs ih =>
    obtain ⟨hx, hnd⟩ := List.nodup_cons.mp hnd
    rw [List.enumFrom_cons, List.foldl_cons, ih hnd, setColumn, List.length_set, List.getElem?_set]
    by_cases hcx : c = x
    · subst hcx
      by_cases hlt : c < acc.length
      · simp [hx, hlt, List.indexOf_cons_self]
      · simp [hx, hlt, Nat.le_of_not_lt hlt]
    · have : x ≠ c := Ne.symm hcx
      simp only [List.mem_cons, hcx, false_or, this, if_false, List.indexOf_cons_ne _ this]
      split_ifs <;> first | rfl | (congr 2; omega)

/-- `col2str` from columns below the header length, distinct: column `c` holds stream `i`
exactly when stream `i` has column `c`. -/
theorem getElem?_col2strOf {n : Nat} {str2col : List Nat} (hnd : str2col.Nodup)
    (hlt : ∀ c ∈ str2col, c < n) (c i : Nat) :
    (col2strOf n str2col)[c]? = some (some i) ↔ str2col[i]? = some c := by
  rw [col2strOf, List.enum, getElem?_foldl_setColumn hnd, List.length_replicate]
  constructor
  · intro h
    split_ifs at h with hc
    · obtain rfl : str2col.indexOf c = i := by simpa using h
      exact List.getElem?_eq_some_iff.mpr ⟨List.indexOf_lt_length.mpr hc.1,
        List.getElem_indexOf _⟩
    · simp [List.getElem?_replicate] at h
  · intro h
    obtain ⟨hi, rfl⟩ := List.getElem?_eq_some_iff.mp h
    have hmem := List.getElem_mem hi
    rw [if_pos ⟨hmem, hlt _ hmem⟩, List.indexOf_getElem hnd, Nat.zero_add]

@[simp] theorem length_col2strOf (n : Nat) (str2col : List Nat) :
    (col2strOf n str2col).length = n := by
  simp [col2strOf]

/-! ## The specification of a column mapping -/

/-- What `from_header` promises for the stream names `names` and the header `header`. -/
structure ColumnMapping.Spec (names header : List String) (m : ColumnMapping) : Prop where
  /-- One column per stream. -/
  length_str2col : m.str2col.length = names.length
  /-- One entry of `col2str` per column. -/
  length_col2str : m.col2str.length = header.length
  /-- The column of stream `i` is in the header, titled `names[i]`, and the first such. -/
  column : ∀ i c : Nat, m.str2col[i]? = some c →
    c < header.length ∧ header[c]? = names[i]? ∧ ∀ c' : Nat, c' < c → header[c']? ≠ names[i]?
  /-- No two streams share a column. -/
  str2col_nodup : m.str2col.Nodup
  /-- `col2str` inverts `str2col`. -/
  col2str_iff : ∀ c i : Nat, m.col2str[c]? = some (some i) ↔ m.str2col[i]? = some c
  /-- The time column is the first column with a time title. -/
  timeIx : m.timeIx = header.findIdx? isTimeName

variable {names header : List String}

/-- The first column titled `name`. -/
theorem findIdx_spec {name : String} (h : name ∈ header) :
    header.findIdx (· == name) < header.length ∧
      header[header.findIdx (· == name)]? = some name ∧
      ∀ c' : Nat, c' < header.findIdx (· == name) → header[c']? ≠ some name := by
  have hlt : header.findIdx (· == name) < header.length :=
    List.findIdx_lt_length_of_exists ⟨name, h, by simp⟩
  refine ⟨hlt, List.getElem?_eq_some_iff.mpr ⟨hlt, by simpa using @List.findIdx_getElem _ (· == name) header hlt⟩,
    fun c' hc' hget => ?_⟩
  have := List.not_of_lt_findIdx hc'
  obtain ⟨_, hc'get⟩ := List.getElem?_eq_some_iff.mp hget
  simp [hc'get] at this

/-- **`from_header` for distinct names that all have a column meets `ColumnMapping.Spec`.** -/
theorem fromHeader_meets_spec (hnd : names.Nodup) (hmem : ∀ name ∈ names, name ∈ header) :
    ∃ m, ColumnMapping.fromHeader names header = .ok m ∧ m.Spec names header := by
  rw [fromHeader_eq, firstMissing_eq_none.mpr hmem]
  set str2col := names.map fun name => header.findIdx (· == name)
  have hcol : ∀ i c : Nat, str2col[i]? = some c →
      c < header.length ∧ header[c]? = names[i]? ∧ ∀ c' : Nat, c' < c → header[c']? ≠ names[i]? := by
    intro i c h
    obtain ⟨name, hname, rfl⟩ : ∃ name, names[i]? = some name ∧
        header.findIdx (· == name) = c := by
      simpa [str2col, List.getElem?_map] using h
    exact hname ▸ findIdx_spec (hmem name (List.getElem?_mem hname))
  have hnd' : str2col.Nodup := hnd.map_on fun x hx y hy hxy => by
    have := (findIdx_spec (hmem x hx)).2.1
    rwa [hxy, (findIdx_spec (hmem y hy)).2.1, Option.some_inj, eq_comm] at this
  have hlt : ∀ c ∈ str2col, c < header.length := fun c hc => by
    obtain ⟨i, hi, rfl⟩ := List.getElem_of_mem hc
    exact (hcol i _ (List.getElem?_eq_getElem hi)).1
  exact ⟨_, rfl, ⟨by simp [str2col], length_col2strOf _ _, hcol, hnd',
    getElem?_col2strOf hnd' hlt, rfl⟩⟩

namespace ColumnMapping.Spec

variable {m : ColumnMapping} (h : m.Spec names header)
include h

/-- A stream's column is the first column titled with its name. -/
theorem str2col_of_first {i c : Nat} (htitle : header[c]? = names[i]?) (hi : i < names.length)
    (hfirst : ∀ c' : Nat, c' < c → header[c']? ≠ names[i]?) : m.str2col[i]? = some c := by
  obtain ⟨c', hc'⟩ : ∃ c', m.str2col[i]? = some c' :=
    ⟨_, List.getElem?_eq_getElem (h.length_str2col ▸ hi)⟩
  obtain ⟨-, htitle', hfirst'⟩ := h.column i c' hc'
  rw [hc']
  rcases Nat.lt_trichotomy c' c with hlt | rfl | hgt
  · exact absurd htitle' (hfirst c' hlt)
  · rfl
  · exact absurd htitle (hfirst' c hgt)

/-- The time column is a stream's column exactly when its title is a stream's name; and
`time_is_stream` never panics. -/
theorem timeIsStream_eq :
    m.timeIsStream = some ((m.timeIx.bind fun c => header[c]?).any fun t : String => decide (t ∈ names)) := by
  cases htime : m.timeIx with
  | none => simp [ColumnMapping.timeIsStream, htime]
  | some c =>
    obtain ⟨hcl, htc, hfirst⟩ := List.findIdx?_eq_some_iff_getElem.mp (h.timeIx ▸ htime)
    have hcol : c < m.col2str.length := h.length_col2str ▸ hcl
    simp only [ColumnMapping.timeIsStream, htime, Option.some_bind, List.getElem?_eq_getElem hcl,
      List.getElem?_eq_getElem hcol, Option.any_some, Option.map_some', Option.some_inj]
    rw [Bool.eq_iff_iff, Option.isSome_iff_exists, decide_eq_true_iff]
    constructor
    · rintro ⟨i, hi⟩
      have hx : m.col2str[c]? = some (some i) := by rw [List.getElem?_eq_getElem hcol, hi]
      obtain ⟨-, htitle, -⟩ := h.column i c ((h.col2str_iff c i).mp hx)
      rw [List.getElem?_eq_getElem hcl] at htitle
      exact List.getElem?_mem htitle.symm
    · intro hmem
      obtain ⟨i, hi, hti⟩ := List.getElem_of_mem hmem
      have hnames : names[i]? = some header[c] := by rw [List.getElem?_eq_getElem hi, hti]
      have hs := h.str2col_of_first (by rw [List.getElem?_eq_getElem hcl, hnames]) hi
        fun c' hc' hget => by
          obtain ⟨_, hc'get⟩ := List.getElem?_eq_some_iff.mp (hget.trans hnames)
          exact hfirst c' hc' (hc'get ▸ htc)
      have hx := (h.col2str_iff c i).mpr hs
      rw [List.getElem?_eq_getElem hcol, Option.some_inj] at hx
      exact ⟨i, hx⟩

end ColumnMapping.Spec

/-- **The time column of the mapping `from_header` builds is a stream's column exactly when its
title is a stream's name**, for distinct names that all have a column; `time_is_stream` never
panics on it. -/
theorem timeIsStream_fromHeader (hnd : names.Nodup) (hmem : ∀ name ∈ names, name ∈ header)
    {m : ColumnMapping} (hm : ColumnMapping.fromHeader names header = .ok m) :
    m.timeIsStream =
      some ((m.timeIx.bind fun c => header[c]?).any fun t : String => decide (t ∈ names)) := by
  obtain ⟨m', hm', hspec⟩ := fromHeader_meets_spec hnd hmem
  rw [hm] at hm'
  cases hm'
  exact hspec.timeIsStream_eq

/-! ## Reading records -/

/-- The state after a successful read: the mapping meets `Spec`, and the record has one cell per
column. -/
structure InputReader.Valid (names header : List String) (r : InputReader) : Prop where
  mapping : r.mapping.Spec names header
  record : r.record.length = header.length

namespace InputReader

variable {r r' : InputReader} {read : Option (List String)} {b : Bool}

/-- **`read_blocking` never panics**: it returns what `read_record` returns and stores the
record `read_record` leaves; the `assert_eq!` on `num_columns` cannot fail, since `read_record`
reports a record of another length as an error first. -/
theorem readBlocking_eq (r : InputReader) (read : Option (List String)) :
    r.readBlocking read = some ((readRecord r.mapping.numColumns read).2,
      { r with record := (readRecord r.mapping.numColumns read).1 }) := by
  cases read with
  | none => rfl
  | some record =>
    by_cases h : record.length = r.mapping.numColumns <;> simp [readBlocking, readRecord, h]

/-- For a mapping meeting `Spec`, `read_blocking` stores every record it reads, and accepts it
exactly when it has one cell per column. -/
theorem readBlocking_record (hm : r.mapping.Spec names header) (record : List String) :
    r.readBlocking (some record) = some (if record.length = header.length then .ok true
      else .error (.unequalLengths header.length record.length), { r with record }) := by
  simp [readBlocking_eq, readRecord, ColumnMapping.numColumns, hm.length_col2str]

/-- After a read that returned `Ok(true)`, the reader is `Valid`. -/
theorem readBlocking_valid (hm : r.mapping.Spec names header)
    (hr : r.readBlocking read = some (.ok true, r')) : r'.Valid names header := by
  cases read with
  | none => simp [readBlocking_eq, readRecord] at hr
  | some record =>
    rw [readBlocking_record hm] at hr
    split_ifs at hr with hlen
    · cases hr
      exact ⟨hm, hlen⟩
    · simp at hr

theorem readAll_cons (r : InputReader) (read : Option (List String))
    (reads : List (Option (List String))) :
    r.readAll (read :: reads) =
      ({ r with record := (readRecord r.mapping.numColumns read).1 } : InputReader).readAll reads := by
  simp [readAll, readBlocking_eq]

namespace Valid

variable (hv : r.Valid names header)
include hv

/-- Each stream reads, within bounds, the cell under its column. -/
theorem strRefForStreamIx_eq {i c : Nat} (hc : r.mapping.str2col[i]? = some c) :
    ∃ cell, r.record[c]? = some cell ∧ r.strRefForStreamIx i = some cell := by
  have hlt : c < r.record.length := hv.record ▸ (hv.mapping.column i c hc).1
  exact ⟨_, List.getElem?_eq_getElem hlt, by simp [strRefForStreamIx, hc, hlt]⟩

/-- `str_ref_for_time` reads the cell under the time column, and panics when there is none. -/
theorem strRefForTime_eq :
    r.strRefForTime = (r.timeIndex.bind fun c => r.record[c]?) ∧
      (r.timeIndex.isSome → r.strRefForTime.isSome) := by
  refine ⟨rfl, fun hsome => ?_⟩
  obtain ⟨c, hc⟩ := Option.isSome_iff_exists.mp hsome
  have hc' : r.mapping.timeIx = some c := hc
  obtain ⟨hcl, -⟩ := List.findIdx?_eq_some_iff_getElem.mp (hv.mapping.timeIx ▸ hc')
  simp [strRefForTime, hc, hv.record, hcl]

end Valid

end InputReader

/-- **`from_header` routes every stream to its own column**: for distinct stream names that all
occur in the header, `from_header` returns a mapping meeting `ColumnMapping.Spec`, and a reader
with that mapping accepts every record of one cell per column, after which each stream reads,
within bounds, the cell under its column. -/
theorem fromHeader_spec (hnd : names.Nodup) (hmem : ∀ name ∈ names, name ∈ header) :
    ∃ m, ColumnMapping.fromHeader names header = .ok m ∧ m.Spec names header ∧
      ∀ r : InputReader, r.mapping = m → ∀ record : List String, record.length = header.length →
        ∃ r', r.readBlocking (some record) = some (.ok true, r') ∧ r'.record = record ∧
          ∀ i c : Nat, m.str2col[i]? = some c →
            ∃ cell, record[c]? = some cell ∧ r'.strRefForStreamIx i = some cell := by
  obtain ⟨m, hfrom, hm⟩ := fromHeader_meets_spec hnd hmem
  refine ⟨m, hfrom, hm, fun r hr record hlen => ?_⟩
  subst hr
  have hread := InputReader.readBlocking_record hm record
  rw [if_pos hlen] at hread
  exact ⟨_, hread, rfl, fun i c hc => (InputReader.readBlocking_valid hm hread).strRefForStreamIx_eq hc⟩

/-- Two streams under a header with a time column first, an extra column, and a title repeated. -/
def sampleNames : List String := ["b", "a"]

/-- See `sampleNames`. -/
def sampleHeader : List String := ["time", "a", "x", "b", "a"]

theorem fromHeader_spec_sample :
    sampleNames.Nodup ∧ (∀ name ∈ sampleNames, name ∈ sampleHeader) ∧
      ∃ m, ColumnMapping.fromHeader sampleNames sampleHeader = .ok m ∧
        m.Spec sampleNames sampleHeader ∧
        ∀ r : InputReader, r.mapping = m → ∀ record : List String,
          record.length = sampleHeader.length →
          ∃ r', r.readBlocking (some record) = some (.ok true, r') ∧ r'.record = record ∧
            ∀ i c : Nat, m.str2col[i]? = some c →
              ∃ cell, record[c]? = some cell ∧ r'.strRefForStreamIx i = some cell :=
  ⟨by decide, by decide, fromHeader_spec (by decide) (by decide)⟩

example : ColumnMapping.fromHeader sampleNames sampleHeader =
    .ok ⟨[3, 1], [none, some 1, none, some 0, none], some 0⟩ := rfl

theorem timeIsStream_fromHeader_sample :
    sampleNames.Nodup ∧ (∀ name ∈ sampleNames, name ∈ sampleHeader) ∧
      ColumnMapping.fromHeader sampleNames sampleHeader =
        .ok ⟨[3, 1], [none, some 1, none, some 0, none], some 0⟩ ∧
      ColumnMapping.timeIsStream ⟨[3, 1], [none, some 1, none, some 0, none], some 0⟩ =
        some (((some 0 : Option Nat).bind fun c => sampleHeader[c]?).any
          fun t : String => decide (t ∈ sampleNames)) :=
  ⟨by decide, by decide, rfl, timeIsStream_fromHeader (by decide) (by decide) rfl⟩

/-- The mapping `from_header` builds for `sampleNames` and `sampleHeader`. -/
def sampleMapping : ColumnMapping := ⟨[3, 1], [none, some 1, none, some 0, none], some 0⟩

/-- A record, one of another length, and the end of the input. -/
def sampleReads : List (Option (List String)) :=
  [some ["0.5", "1", "x", "2", "1"], some ["1.5", "3"], none]

example : (⟨sampleMapping, []⟩ : InputReader).readBlocking (some ["1.5", "3"]) =
    some (.error (.unequalLengths 5 2), ⟨sampleMapping, ["1.5", "3"]⟩) := rfl

example : ((⟨sampleMapping, []⟩ : InputReader).readAll (sampleReads.take 1)).bind
    (·.strRefForStreamIx 0) = some "2" := rfl

end RTLola.Io
