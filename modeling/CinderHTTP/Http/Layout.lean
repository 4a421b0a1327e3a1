import CinderHTTP.Http.Pointers
import Mathlib.Algebra.BigOperators.Group.List.Basic
import Mathlib.Data.List.Forall2
import Mathlib.Tactic.Abel

/-!
# A request in memory

Which blocks a request record points to, and what they hold.  The functions on
the record read and change these blocks as the functions on lists say, and
`http_request_destroy` frees them all.
-/

namespace CinderHTTP

namespace Pointers

/-! ## A request in memory -/

/-- A pointer that is `NULL`, or the address of a C string. -/
inductive Text : Option Nat → Option Bytes → Multiset (Block Cell) → Prop
  | null : Text none none 0
  | string {block : Block Cell} {text : Bytes}
      (reads : cString block.cells = some text) :
      Text (some block.address) (some text) {block}

/-- The strings of an array entry. -/
structure Entry where
  name : Block Cell
  value : Block Cell

namespace Entry

def cell (entry : Entry) : Option Cell :=
  some (.pointers [entry.name.address, entry.value.address])

def blocks (entry : Entry) : Multiset (Block Cell) :=
  {entry.name} + {entry.value}

structure Reads (entry : Entry) (header : Header) : Prop where
  name : cString entry.name.cells = some header.name
  value : cString entry.value.cells = some header.value

end Entry

def entryBlocks (entries : List Entry) : Multiset (Block Cell) :=
  (entries.map Entry.blocks).sum

@[simp] theorem entryBlocks_nil : entryBlocks [] = 0 := rfl

@[simp] theorem entryBlocks_cons (entry : Entry) (entries : List Entry) :
    entryBlocks (entry :: entries) = entry.blocks + entryBlocks entries := by
  rw [entryBlocks, List.map_cons, List.sum_cons]
  rfl

@[simp] theorem entryBlocks_append (entries others : List Entry) :
    entryBlocks (entries ++ others) =
      entryBlocks entries + entryBlocks others := by
  rw [entryBlocks, List.map_append, List.sum_append]
  rfl

/-- The array of headers with the strings it points to. -/
inductive Table : Option Nat → List Header → Multiset (Block Cell) → Prop
  | null : Table none [] 0
  | array {block : Block Cell} {entries : List Entry}
      {headers : List Header} (nonempty : headers ≠ [])
      (cells : block.cells = entries.map Entry.cell)
      (reads : List.Forall₂ Entry.Reads entries headers) :
      Table (some block.address) headers ({block} + entryBlocks entries)

inductive Body : Option Nat → Bytes → Multiset (Block Cell) → Prop
  | null : Body none [] 0
  | bytes {block : Block Cell} {body : Bytes} (nonempty : body ≠ [])
      (cells : block.cells = textCells body) :
      Body (some block.address) body {block}

/-- The record holds the request, in these blocks. -/
inductive Stores (record : RequestRecord) (request : Request) :
    Multiset (Block Cell) → Prop
  | mk {target version headers body : Multiset (Block Cell)}
      (method : record.method = request.method)
      (targetText : Text record.target request.target target)
      (versionText : Text record.version request.version version)
      (table : Table record.headers request.headers headers)
      (count : record.headerCount = request.headers.length)
      (bodyBytes : Body record.body request.body body)
      (length : record.bodyLength = request.body.length) :
      Stores record request (target + version + headers + body)

theorem Body.null_of_empty {pointer : Option Nat}
    {blocks : Multiset (Block Cell)} (stored : Body pointer [] blocks) :
    pointer = none ∧ blocks = 0 := by
  cases stored with
  | null => exact ⟨rfl, rfl⟩
  | bytes nonempty cells => exact absurd rfl nonempty

theorem stores_init :
    Stores Pointers.httpRequestInit CinderHTTP.httpRequestInit 0 := by
  have stored := @Stores.mk Pointers.httpRequestInit
    CinderHTTP.httpRequestInit _ _ _ _ rfl .null .null .null rfl .null rfl
  rwa [add_zero, add_zero, add_zero] at stored

theorem Stores.nothing {record : RequestRecord}
    {blocks : Multiset (Block Cell)}
    (stores : Stores record CinderHTTP.httpRequestInit blocks) :
    blocks = 0 := by
  cases stores with
  | mk method target version table count body length =>
      obtain ⟨-, rfl⟩ := body.null_of_empty
      generalize record.target = targetPointer at target
      generalize record.version = versionPointer at version
      generalize record.headers = tablePointer at table
      cases target
      cases version
      cases table with
      | null => simp
      | array nonempty => exact absurd rfl nonempty

/-- What a function that stores into the request leaves: the result and the
remaining answers are those on lists, and the record holds the request. -/
structure Leaves {β : Type} (listed : (β × Request) × Allocs)
    (owned : Multiset (Block Cell)) (result : β × RequestRecord)
    (after : Heap Cell) : Prop where
  answer : result.1 = listed.1.1
  allocs : after.allocs = listed.2
  stored : ∃ blocks, Stores result.2 listed.1.2 blocks ∧
    after.Holds (blocks + owned)

section

variable {heap : Heap Cell} {owned : Multiset (Block Cell)}

/-! ## The request record -/

theorem Text.owns {pointer : Option Nat} {text : Option Bytes}
    {blocks : Multiset (Block Cell)} (stored : Text pointer text blocks) :
    Owns pointer blocks := by
  cases stored with
  | null => exact .null
  | string reads => exact .block _

theorem Body.owns {pointer : Option Nat} {bytes : Bytes}
    {blocks : Multiset (Block Cell)} (stored : Body pointer bytes blocks) :
    Owns pointer blocks := by
  cases stored with
  | null => exact .null
  | bytes nonempty cells => exact .block _

/-- The entries of an array from an index on. -/
structure EntriesFrom (array : Block Cell) (index : Nat) (entry : Entry)
    (entries : List Entry) : Prop where
  stored : array.cells[index]? = some entry.cell
  behind : array.cells.drop (index + 1) = entries.map Entry.cell

theorem entriesFrom {array : Block Cell} {index : Nat} {entry : Entry}
    {entries : List Entry}
    (cells : array.cells.drop index = (entry :: entries).map Entry.cell) :
    EntriesFrom array index entry entries := by
  constructor
  · have first := congrArg List.head? cells
    rwa [List.head?_drop] at first
  · have rest := congrArg List.tail cells
    rwa [List.tail_drop] at rest

theorem loadHeader_gives {array : Block Cell} {index : Nat} {entry : Entry}
    (holds : heap.Holds ({array} + owned))
    (stored : array.cells[index]? = some entry.cell) :
    Gives (loadHeader array.address index) heap fun given after =>
      (entry.name.address, entry.value.address) = given ∧
        heap = after := by
  apply (load_gives holds stored).andThen
  rintro _ _ ⟨rfl, rfl⟩
  exact .pure ⟨rfl, rfl⟩

section

variable {array : Block Cell} {entry : Entry} {entries : List Entry}
  (holds : heap.Holds ({array} + (entryBlocks (entry :: entries) + owned)))

include holds

theorem holds_firstEntry : heap.Holds ({entry.name} + ({entry.value} +
    ({array} + (entryBlocks entries + owned)))) := by
  apply holds.rearrange
  rw [entryBlocks_cons, Entry.blocks]
  abel

theorem holds_laterEntries : heap.Holds ({array} + (entryBlocks entries +
    (entry.blocks + owned))) := by
  apply holds.rearrange
  rw [entryBlocks_cons]
  abel

end

theorem destroyHeaders_gives {array : Block Cell} {entries : List Entry}
    {index : Nat} (cells : array.cells.drop index = entries.map Entry.cell)
    (holds : heap.Holds ({array} + (entryBlocks entries + owned))) :
    Gives (destroyHeaders array.address index entries.length) heap
      fun _ after =>
        after.Holds ({array} + owned) ∧ after.allocs = heap.allocs := by
  induction entries generalizing index heap with
  | nil =>
      rw [entryBlocks_nil, zero_add] at holds
      exact .pure ⟨holds, rfl⟩
  | cons entry entries induction =>
      have here := entriesFrom cells
      apply (loadHeader_gives holds here.stored).andThen
      rintro _ _ ⟨rfl, rfl⟩
      apply (release_gives (holds_firstEntry holds)).andThen
      rintro _ half ⟨left, same⟩
      apply (release_gives left).andThen
      rintro _ later ⟨rest, again⟩
      apply (induction here.behind rest).weaken
      rintro _ after ⟨done, last⟩
      exact ⟨done, last.trans (again.trans same)⟩

theorem Table.destroy {pointer : Option Nat} {headers : List Header}
    {blocks : Multiset (Block Cell)} (table : Table pointer headers blocks)
    (holds : heap.Holds (blocks + owned)) :
    Gives (destroyTable pointer headers.length) heap fun _ after =>
      after.Holds owned ∧ after.allocs = heap.allocs := by
  cases table with
  | null =>
      rw [zero_add] at holds
      exact .pure ⟨holds, rfl⟩
  | @array block entries _ nonempty cells reads =>
      have all : block.cells.drop 0 = entries.map Entry.cell := cells
      rw [← reads.length_eq]
      rw [add_assoc] at holds
      apply (destroyHeaders_gives all holds).andThen
      rintro _ later ⟨only, same⟩
      apply (release_gives only).weaken
      rintro _ after ⟨done, again⟩
      exact ⟨done, again.trans same⟩

/-- Everything the record points to is freed, and nothing else. -/
theorem httpRequestDestroy_gives {record : RequestRecord}
    {request : Request} {blocks : Multiset (Block Cell)}
    (stores : Stores record request blocks)
    (holds : heap.Holds (blocks + owned)) :
    Gives (Pointers.httpRequestDestroy record) heap fun result after =>
      Pointers.httpRequestInit = result ∧ after.Holds owned ∧
        after.allocs = heap.allocs := by
  cases stores with
  | mk method target version table count body length =>
      simp only [add_assoc] at holds
      unfold Pointers.httpRequestDestroy
      rw [count]
      apply (target.owns.release holds).andThen
      rintro _ first ⟨holds, same⟩
      apply (version.owns.release holds).andThen
      rintro _ second ⟨holds, again⟩
      apply (table.destroy holds).andThen
      rintro _ third ⟨holds, more⟩
      apply (body.owns.release holds).andThen
      rintro _ last ⟨holds, done⟩
      exact .pure ⟨rfl, holds, by rw [done, more, again, same]⟩

/-! ## Looking up headers -/

/-- A pointer to a string that reads as the text found on lists. -/
inductive Found (heap : Heap Cell) : Option Nat → Option Bytes → Prop
  | missing : Found heap none none
  | present {block : Block Cell} {others : Multiset (Block Cell)}
      {text : Bytes} (holds : heap.Holds ({block} + others))
      (reads : cString block.cells = some text) :
      Found heap (some block.address) (some text)

theorem getHeaderFrom_gives (name : Bytes) {array : Block Cell}
    {entries : List Entry} {headers : List Header} {index : Nat}
    (cells : array.cells.drop index = entries.map Entry.cell)
    (reads : List.Forall₂ Entry.Reads entries headers)
    (holds : heap.Holds ({array} + (entryBlocks entries + owned))) :
    Gives (getHeaderFrom name array.address index entries.length) heap
      fun found after => heap = after ∧ Found heap found
        ((headers.find? fun header =>
          headerNameEqual header.name name).map Header.value) := by
  induction reads generalizing index owned with
  | nil => exact .pure ⟨rfl, .missing⟩
  | @cons entry header entries headers read reads induction =>
      have here := entriesFrom cells
      have named := holds_firstEntry holds
      apply (loadHeader_gives holds here.stored).andThen
      rintro _ _ ⟨rfl, rfl⟩
      apply (readString_gives named read.name).andThen
      rintro _ _ ⟨rfl, rfl⟩
      rw [List.find?_cons]
      cases headerNameEqual header.name name with
      | true =>
          exact .pure ⟨rfl, .present
            (named.rearrange (add_left_comm _ _ _)) read.value⟩
      | false => exact induction here.behind (holds_laterEntries holds)

theorem countHeadersFrom_gives (name : Bytes) {array : Block Cell}
    {entries : List Entry} {headers : List Header} {index : Nat}
    (cells : array.cells.drop index = entries.map Entry.cell)
    (reads : List.Forall₂ Entry.Reads entries headers)
    (holds : heap.Holds ({array} + (entryBlocks entries + owned))) :
    Gives (countHeadersFrom name array.address index entries.length) heap
      fun count after => heap = after ∧
        (headers.countP fun header =>
          headerNameEqual header.name name) = count := by
  induction reads generalizing index owned with
  | nil => exact .pure ⟨rfl, rfl⟩
  | @cons entry header entries headers read reads induction =>
      have here := entriesFrom cells
      apply (loadHeader_gives holds here.stored).andThen
      rintro _ _ ⟨rfl, rfl⟩
      apply (readString_gives (holds_firstEntry holds) read.name).andThen
      rintro _ _ ⟨rfl, rfl⟩
      apply (induction here.behind (holds_laterEntries holds)).andThen
      rintro _ _ ⟨rfl, rfl⟩
      apply Gives.pure
      refine ⟨rfl, ?_⟩
      rw [List.countP_cons]
      split_ifs
      · rfl
      · rfl

/-- The array of a record with what it points to, if there is one. -/
inductive TableOf (heap : Heap Cell) (record : RequestRecord) :
    List Header → Prop
  | null (pointer : record.headers = none) (count : record.headerCount = 0) :
      TableOf heap record []
  | array {block : Block Cell} {entries : List Entry}
      {headers : List Header} {others : Multiset (Block Cell)}
      (pointer : record.headers = some block.address)
      (count : record.headerCount = entries.length)
      (cells : block.cells.drop 0 = entries.map Entry.cell)
      (reads : List.Forall₂ Entry.Reads entries headers)
      (holds : heap.Holds ({block} + (entryBlocks entries + others))) :
      TableOf heap record headers

section

variable {record : RequestRecord} {request : Request}
  {blocks : Multiset (Block Cell)} (stores : Stores record request blocks)
  (holds : heap.Holds (blocks + owned))

include stores holds

theorem Stores.tableOf : TableOf heap record request.headers := by
  cases stores with
  | @mk target version _ body _ _ _ table count _ _ =>
      generalize pointer : record.headers = address at table
      generalize request.headers = headers at table count
      cases table with
      | null => exact .null pointer count
      | @array block entries _ nonempty cells reads =>
          have split : heap.Holds ({block} + (entryBlocks entries +
              (target + version + body + owned))) :=
            holds.rearrange (by abel)
          exact .array pointer (count.trans reads.length_eq.symm) cells reads
            split

theorem httpRequestGetHeader_gives (name : Bytes) :
    Gives (Pointers.httpRequestGetHeader record name) heap
      fun found after => heap = after ∧
        Found heap found (CinderHTTP.httpRequestGetHeader request name) := by
  have table := stores.tableOf holds
  unfold Pointers.httpRequestGetHeader CinderHTTP.httpRequestGetHeader
  generalize request.headers = headers at table
  cases table with
  | null pointer count =>
      rw [pointer, count]
      exact .pure ⟨rfl, .missing⟩
  | array pointer count cells reads holds =>
      rw [pointer, count]
      exact getHeaderFrom_gives name cells reads holds

theorem countHeaders_gives (name : Bytes) :
    Gives (countHeaders record name) heap fun count after =>
      heap = after ∧ (request.headers.countP fun header =>
        headerNameEqual header.name name) = count := by
  have table := stores.tableOf holds
  unfold countHeaders
  generalize request.headers = headers at table ⊢
  cases table with
  | null pointer count =>
      rw [pointer, count]
      exact .pure ⟨rfl, rfl⟩
  | array pointer count cells reads holds =>
      rw [pointer, count]
      exact countHeadersFrom_gives name cells reads holds

theorem storedBodyLength_gives :
    Gives (Pointers.storedBodyLength record) heap fun result after =>
      CinderHTTP.storedBodyLength request = result ∧ heap = after := by
  have counts := countHeaders_gives stores holds (ascii "Content-Length")
  unfold CinderHTTP.storedBodyLength
  apply (httpRequestGetHeader_gives stores holds
    (ascii "Content-Length")).andThen
  rintro contentLength _ ⟨rfl, length⟩
  apply (httpRequestGetHeader_gives stores holds
    (ascii "Transfer-Encoding")).andThen
  rintro transferEncoding _ ⟨rfl, encoding⟩
  generalize CinderHTTP.httpRequestGetHeader request
    (ascii "Transfer-Encoding") = transferValue at encoding
  generalize CinderHTTP.httpRequestGetHeader request
    (ascii "Content-Length") = lengthValue at length
  cases encoding with
  | present _ _ => exact .pure ⟨rfl, rfl⟩
  | missing =>
      cases length with
      | missing => exact .pure ⟨rfl, rfl⟩
      | @present block others value found reads =>
          apply counts.andThen
          rintro _ _ ⟨rfl, rfl⟩
          simp only
          split_ifs
          · exact .pure ⟨rfl, rfl⟩
          · apply (readString_gives found reads).andThen
            rintro _ _ ⟨rfl, rfl⟩
            cases httpParseContentLengthValue value with
            | error failure => exact .pure ⟨rfl, rfl⟩
            | ok bodyLength => exact .pure ⟨rfl, rfl⟩

end

/-! ## Adding a header -/

/-- The array is enlarged by an entry that is not written yet. -/
theorem Table.enlarge {pointer : Option Nat} {headers : List Header}
    {blocks : Multiset (Block Cell)} (table : Table pointer headers blocks)
    (holds : heap.Holds (blocks + owned)) :
    ∃ entries, List.Forall₂ Entry.Reads entries headers ∧
      Gives (reallocate pointer (headers.length + 1)) heap
        (Allocated heap (blocks + owned) (entryBlocks entries + owned)
          (entries.map Entry.cell ++ [none])) := by
  cases table with
  | null =>
      refine ⟨[], .nil, ?_⟩
      rw [zero_add] at holds
      have grown := reallocate_null holds 1
      rwa [← zero_add owned] at grown
  | @array block entries _ nonempty cells reads =>
      refine ⟨entries, reads, ?_⟩
      have sized : block.cells.length = headers.length := by
        rw [cells, List.length_map, reads.length_eq]
      have longer : (block.cells ++ List.replicate (headers.length + 1)
          none).take (headers.length + 1) =
            entries.map Entry.cell ++ [none] := by
        rw [List.take_append, sized, List.take_of_length_le (by omega),
          List.take_replicate, cells]
        simp
      rw [add_assoc] at holds
      have grown := reallocate_gives holds (headers.length + 1)
      rwa [longer, ← add_assoc] at grown

/-- An array with these entries. -/
def tableBlock (address : Nat) (entries : List Entry) : Block Cell :=
  { address := address, cells := entries.map Entry.cell }

theorem writeEntry_gives {address : Nat} {entries : List Entry}
    (entry : Entry)
    (holds : heap.Holds ({{ address := address
                            cells := entries.map Entry.cell ++ [none] }} +
      owned)) :
    Gives (overwrite address entries.length
        [.pointers [entry.name.address, entry.value.address]]) heap
      fun _ after =>
        after.Holds ({tableBlock address (entries ++ [entry])} + owned) ∧
          after.allocs = heap.allocs := by
  have copied := @copyAt_append _ (entries.map Entry.cell) [none]
    [entry.cell] (by simp)
  have written : (entries ++ [entry]).map Entry.cell =
      entries.map Entry.cell ++ [entry.cell] := List.map_append
  rw [List.length_map, List.drop_eq_nil_of_le (by simp), List.append_nil,
    ← written] at copied
  exact overwrite_gives holds copied

theorem releaseEntry_gives {β : Type} (entry : Entry) (result : β)
    (holds : heap.Holds (entry.blocks + owned)) :
    Gives (do
        release (some entry.name.address)
        release (some entry.value.address)
        pure result) heap fun given after =>
      result = given ∧ after.Holds owned ∧ after.allocs = heap.allocs := by
  rw [Entry.blocks, add_assoc] at holds
  apply (release_gives holds).andThen
  rintro _ half ⟨left, same⟩
  apply (release_gives left).andThen
  rintro _ after ⟨freed, again⟩
  exact .pure ⟨rfl, freed, again.trans same⟩

theorem appendHeader_gives {record : RequestRecord} {request : Request}
    {blocks : Multiset (Block Cell)} (stores : Stores record request blocks)
    {entry : Entry} {header : Header} (reads : entry.Reads header)
    (holds : heap.Holds (entry.blocks + (blocks + owned))) :
    Gives (Pointers.appendHeader record entry.name.address
        entry.value.address) heap
      (Leaves (CinderHTTP.appendHeader request header.name header.value
        heap.allocs) owned) := by
  have whole := stores
  cases stores with
  | @mk target version headers body method targetText versionText table
      count bodyBytes length =>
      unfold Pointers.appendHeader CinderHTTP.appendHeader
      rw [count]
      by_cases full : request.headers.length ≥ httpMaxHeaders
      · rw [if_pos full, if_pos full]
        apply (releaseEntry_gives entry _ holds).weaken
        rintro _ after ⟨rfl, freed, same⟩
        exact ⟨rfl, same, _, whole, freed⟩
      rw [if_neg full, if_neg full]
      have split : heap.Holds (headers + (entry.blocks +
          (target + version + body + owned))) :=
        holds.rearrange (by abel)
      obtain ⟨entries, stored, enlarged⟩ := table.enlarge split
      apply enlarged.andThen
      intro grown later allocated
      cases allocated with
      | refused answer kept =>
          have both : later.Holds (entry.blocks +
              (target + version + headers + body + owned)) :=
            kept.rearrange (by abel)
          rw [answer]
          apply (releaseEntry_gives entry _ both).weaken
          rintro _ after ⟨rfl, freed, same⟩
          exact ⟨rfl, same, _, whole, freed⟩
      | @granted _ address answer kept =>
          rw [answer, ← stored.length_eq]
          apply (writeEntry_gives entry kept).andThen
          rintro _ after ⟨done, same⟩
          have larger : Table (some address) (request.headers ++ [header])
              ({tableBlock address (entries ++ [entry])} +
                entryBlocks (entries ++ [entry])) :=
            @Table.array (tableBlock address _) _ _ (by simp) rfl
              (List.rel_append stored (.cons reads .nil))
          have counted : entries.length + 1 =
              (request.headers ++ [header]).length := by
            rw [List.length_append, stored.length_eq, List.length_singleton]
          apply Gives.pure
          refine ⟨rfl, same, _, .mk method targetText versionText larger
            counted bodyBytes length, ?_⟩
          apply done.rearrange
          rw [entryBlocks_append, entryBlocks_cons, entryBlocks_nil]
          abel

end

end Pointers

end CinderHTTP
