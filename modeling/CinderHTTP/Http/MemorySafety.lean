import CinderHTTP.Http.FramingSafety
import CinderHTTP.Http.Layout
import CinderHTTP.Http.RequestLine
import CinderHTTP.Http.Storage

/-!
# The request parser is memory safe

Whatever the message is and whichever allocations fail, the parser with
pointers is defined: it reads nothing outside of the message, uses and frees
only what is live, and its loops end.  It does what the parser on lists does.
What it leaves in memory is what the request record points to, which
`http_request_destroy` then frees.
-/

namespace CinderHTTP

namespace Pointers

section

variable {data : Bytes} {heap : Heap Cell} {owned : Multiset (Block Cell)}

/-! ## Request line -/

theorem leaves_init {β : Type} {result : β} {allocs : Allocs}
    (same : heap.allocs = allocs) (holds : heap.Holds owned) :
    Leaves ((result, CinderHTTP.httpRequestInit), allocs) owned
      (result, Pointers.httpRequestInit) heap :=
  ⟨rfl, same, 0, stores_init, holds.rearrange (zero_add _).symm⟩

theorem leaves_requestLine {β : Type} {result : β} {allocs : Allocs}
    {target version : Option Nat} {targetText versionText : Option Bytes}
    {targetBlocks versionBlocks : Multiset (Block Cell)}
    (method : HttpMethod) (same : heap.allocs = allocs)
    (targetStored : Text target targetText targetBlocks)
    (versionStored : Text version versionText versionBlocks)
    (holds : heap.Holds (targetBlocks + versionBlocks + owned)) :
    Leaves ((result, { CinderHTTP.httpRequestInit with
        method := method
        target := targetText
        version := versionText }), allocs) owned
      (result, { Pointers.httpRequestInit with
        method := method
        target := target
        version := version }) heap := by
  refine ⟨rfl, same, targetBlocks + versionBlocks + 0 + 0,
    .mk rfl targetStored versionStored .null rfl .null rfl, ?_⟩
  rwa [add_zero, add_zero]

/-- The end of the request line on lists, for each outcome of the two
allocations. -/
theorem storeRequestLine_eq {method : Bytes}
    (supported : isSupportedMethodToken method = true)
    {allocs middle last : Allocs} {targetGranted versionGranted : Bool}
    (first : malloc allocs = (targetGranted, middle))
    (second : malloc middle = (versionGranted, last))
    (target version : Bytes) (request : Request) :
    CinderHTTP.storeRequestLine method target version request allocs =
      ((if targetGranted && versionGranted then
          versionResult (CinderHTTP.dupRange version)
        else .error .outOfMemory,
        { request with
          method := httpMethodFromString method
          target := if targetGranted then some (CinderHTTP.dupRange target)
            else none
          version := if versionGranted then
            some (CinderHTTP.dupRange version) else none }), last) := by
  simp only [CinderHTTP.storeRequestLine, supported, first, second,
    Bool.not_true, Bool.false_eq_true, if_false]
  cases targetGranted with
  | false => rfl
  | true =>
      cases versionGranted with
      | false => rfl
      | true =>
          simp only [versionResult, Bool.not_true, Bool.or_self,
            Bool.and_self, Bool.false_eq_true, if_false, if_true]
          split_ifs
          · rfl
          · rfl
          · rfl

theorem text_copy (address : Nat) (text : Bytes) :
    Text (some address) (some (CinderHTTP.dupRange text))
      {{ address := address, cells := textCells text }} :=
  @Text.string { address := address, cells := textCells text } _
    (cString_textCells text)

section

variable {methodCopy : Block Cell}
  (owns : heap.Holds ({methodCopy} + owned))

include owns

theorem refuseMethod_gives :
    Gives (refuseMethod methodCopy.address Pointers.httpRequestInit) heap
      (Leaves ((.error .badRequest, CinderHTTP.httpRequestInit),
        heap.allocs) owned) := by
  apply (release_gives owns).andThen
  rintro _ after ⟨freed, same⟩
  exact .pure (leaves_init same freed)

theorem storeRequestLine_gives {method targetText versionText : Bytes}
    {target version : Range}
    (reads : cString methodCopy.cells = some method)
    (targetRead : readRange data target.start target.length =
      some targetText)
    (versionRead : readRange data version.start version.length =
      some versionText) :
    Gives (Pointers.storeRequestLine data methodCopy.address target version
        Pointers.httpRequestInit) heap
      (Leaves (CinderHTTP.storeRequestLine method targetText versionText
        CinderHTTP.httpRequestInit heap.allocs) owned) := by
  apply (readString_gives owns reads).andThen
  rintro _ _ ⟨rfl, rfl⟩
  cases supported : isSupportedMethodToken method with
  | false =>
      apply (release_gives owns).andThen
      rintro _ after ⟨freed, same⟩
      apply Gives.pure
      unfold CinderHTTP.storeRequestLine
      rw [supported]
      cases isKnownUnsupportedMethod method with
      | true => exact leaves_init same freed
      | false => exact leaves_init same freed
  | true =>
      apply (release_gives owns).andThen
      rintro _ start ⟨holds, same⟩
      rw [← same]
      apply (newText_gives holds targetRead
        (readRange_length targetRead)).andThen
      intro targetCopy middle targetResult
      -- the version is copied even when the target could not be
      cases targetResult with
      | refused first holds =>
          apply (newText_gives holds versionRead
            (readRange_length versionRead)).andThen
          intro versionCopy after versionResult
          cases versionResult with
          | refused second holds =>
              rw [storeRequestLine_eq supported first second]
              exact .pure (leaves_requestLine _ rfl .null .null
                (holds.rearrange (by simp)))
          | granted second holds =>
              rw [storeRequestLine_eq supported first second]
              exact .pure (leaves_requestLine _ rfl .null (text_copy _ _)
                (holds.rearrange (by simp)))
      | granted first holds =>
          apply (newText_gives holds versionRead
            (readRange_length versionRead)).andThen
          intro versionCopy after versionResult
          cases versionResult with
          | refused second holds =>
              rw [storeRequestLine_eq supported first second]
              exact .pure (leaves_requestLine _ rfl (text_copy _ _) .null
                (holds.rearrange (by simp)))
          | granted second holds =>
              rw [storeRequestLine_eq supported first second]
              apply (readString_gives holds (cString_textCells _)).andThen
              rintro _ _ ⟨rfl, rfl⟩
              exact .pure (leaves_requestLine _ rfl (text_copy _ _)
                (text_copy _ _) (holds.rearrange (by abel)))

theorem splitVersion_gives {line lineLen : Nat}
    {name method target version : Bytes}
    (reads : cString methodCopy.cells = some name)
    (read : readRange data line lineLen =
      some (method ++ space :: (target ++ space :: version))) :
    Gives (splitVersion data line lineLen method.length methodCopy.address
        (line + method.length + 1 + target.length)
        Pointers.httpRequestInit) heap
      (Leaves
        (if target = [] then
          ((.error .badRequest, CinderHTTP.httpRequestInit), heap.allocs)
        else if version = [] ∨ space ∈ version then
          ((.error .badRequest, CinderHTTP.httpRequestInit), heap.allocs)
        else if nul ∈ target ∨ nul ∈ version then
          ((.error .badRequest, CinderHTTP.httpRequestInit), heap.allocs)
        else
          CinderHTTP.storeRequestLine name target version
            CinderHTTP.httpRequestInit heap.allocs) owned) := by
  have refused := refuseMethod_gives owns
  have targetRead := @readRange_part _ data line lineLen
    (method ++ [space]) target (space :: version) (by rw [read]; simp)
  have versionRead := @readRange_part _ data line lineLen
    (method ++ space :: (target ++ [space])) version [] (by rw [read]; simp)
  have versionLen := versionLen_eq method target version
  rw [readRange_length read] at versionLen
  rw [List.length_append, List.length_singleton, ← Nat.add_assoc]
    at targetRead
  have start : line + (method ++ space :: (target ++ [space])).length =
      line + method.length + 1 + target.length + 1 := by
    simp only [List.length_append, List.length_cons, List.length_nil]
    omega
  rw [start] at versionRead
  unfold splitVersion
  simp only [position_eq_iff]
  by_cases noTarget : target = []
  · rw [if_pos noTarget, if_pos noTarget]
    exact refused
  rw [if_neg noTarget, if_neg noTarget]
  apply (checked_gives (subtractAll_offset _ _)).andThen
  rintro _ _ ⟨rfl, rfl⟩
  apply (checked_gives versionLen).andThen
  rintro _ _ ⟨rfl, rfl⟩
  apply (checked_gives (occursIn_eq versionRead space)).andThen
  rintro _ _ ⟨rfl, rfl⟩
  simp only [List.length_eq_zero_iff, decide_eq_true_eq]
  by_cases noVersion : version = [] ∨ space ∈ version
  · rw [if_pos noVersion, if_pos noVersion]
    exact refused
  rw [if_neg noVersion, if_neg noVersion]
  apply (checked_gives (occursIn_eq targetRead nul)).andThen
  rintro _ _ ⟨rfl, rfl⟩
  apply (checked_gives (occursIn_eq versionRead nul)).andThen
  rintro _ _ ⟨rfl, rfl⟩
  simp only [decide_eq_true_eq]
  by_cases cut : nul ∈ target ∨ nul ∈ version
  · rw [if_pos cut, if_pos cut]
    exact refused
  rw [if_neg cut, if_neg cut]
  exact storeRequestLine_gives owns reads targetRead versionRead

theorem splitAfterMethod_gives {line lineLen : Nat}
    {name method afterMethod : Bytes}
    (reads : cString methodCopy.cells = some name)
    (read : readRange data line lineLen =
      some (method ++ space :: afterMethod)) :
    Gives (Pointers.splitAfterMethod data line lineLen method.length
        methodCopy.address Pointers.httpRequestInit) heap
      (Leaves (CinderHTTP.splitAfterMethod name afterMethod
        CinderHTTP.httpRequestInit heap.allocs) owned) := by
  have refused := refuseMethod_gives owns
  have remaining := remaining_eq method afterMethod
  have behind := @readRange_part _ data line lineLen (method ++ [space])
    afterMethod [] (by rw [read]; simp)
  rw [readRange_length read] at remaining
  rw [List.length_append, List.length_singleton, ← Nat.add_assoc] at behind
  unfold CinderHTTP.splitAfterMethod
  apply (readString_gives owns reads).andThen
  rintro _ _ ⟨rfl, rfl⟩
  cases token : methodTokenIsWellFormed name with
  | false => exact refused
  | true =>
      apply (checked_gives remaining).andThen
      rintro _ _ ⟨rfl, rfl⟩
      cases afterMethod with
      | nil => exact refused
      | cons first others =>
          obtain ⟨front, -⟩ := getElem?_of_readRange behind
          apply (checked_gives front).andThen
          rintro _ _ ⟨rfl, rfl⟩
          by_cases blank : first = space
          · rw [if_pos blank]
            simp only [blank, List.head?_cons, or_true, if_true]
            exact refused
          rw [if_neg blank]
          simp only [blank, List.head?_cons, Option.some.injEq, or_false,
            List.cons_ne_nil, if_false, Bool.not_true, Bool.false_eq_true]
          apply (checked_gives (memchr_eq behind space)).andThen
          rintro _ _ ⟨rfl, rfl⟩
          cases cut : cutFirst space (first :: others) with
          | none => exact refused
          | some parts =>
              obtain ⟨target, version⟩ := parts
              obtain ⟨same, -⟩ := cutFirst_eq_some_iff.mp cut
              rw [same] at read
              exact splitVersion_gives owns reads read

end

theorem parseRequestLine_gives {line lineLen : Nat} {text : Bytes}
    (read : readRange data line lineLen = some text)
    (holds : heap.Holds owned) :
    Gives (Pointers.parseRequestLine data line lineLen
        Pointers.httpRequestInit) heap
      (Leaves (CinderHTTP.parseRequestLine text CinderHTTP.httpRequestInit
        heap.allocs) owned) := by
  have sized := readRange_length read
  unfold Pointers.parseRequestLine CinderHTTP.parseRequestLine
  rw [← sized]
  simp only [List.length_eq_zero_iff]
  by_cases outside : text = [] ∨ text.length > httpMaxRequestLine
  · rw [if_pos outside, if_pos outside]
    split_ifs
    · exact .pure (leaves_init rfl holds)
    · exact .pure (leaves_init rfl holds)
  rw [if_neg outside, if_neg outside]
  rw [← sized] at read
  apply (checked_gives (memchr_eq read space)).andThen
  rintro _ _ ⟨rfl, rfl⟩
  cases cut : cutFirst space text with
  | none => exact .pure (leaves_init rfl holds)
  | some parts =>
      obtain ⟨method, afterMethod⟩ := parts
      obtain ⟨rfl, -⟩ := cutFirst_eq_some_iff.mp cut
      have methodRead := @readRange_part _ data line _ [] method
        (space :: afterMethod) read
      rw [List.length_nil, Nat.add_zero] at methodRead
      simp only [Option.map_some, position_eq_iff]
      by_cases empty : method = []
      · rw [if_pos empty, if_pos empty]
        exact .pure (leaves_init rfl holds)
      rw [if_neg empty, if_neg empty]
      apply (checked_gives (subtractAll_offset _ _)).andThen
      rintro _ _ ⟨rfl, rfl⟩
      apply (checked_gives (occursIn_eq methodRead nul)).andThen
      rintro _ _ ⟨rfl, rfl⟩
      simp only [decide_eq_true_eq]
      by_cases cutShort : nul ∈ method
      · rw [if_pos cutShort, if_pos cutShort]
        exact .pure (leaves_init rfl holds)
      rw [if_neg cutShort, if_neg cutShort]
      apply (newText_gives holds methodRead rfl).andThen
      intro copy after methodResult
      cases methodResult with
      | refused answer kept =>
          rw [answer]
          exact .pure (leaves_init rfl kept)
      | granted answer kept =>
          rw [answer]
          exact splitAfterMethod_gives kept (cString_textCells method) read

/-! ## Header lines -/

theorem parseHeaderLine_gives {record : RequestRecord}
    {request : Request} {blocks : Multiset (Block Cell)} {line : Nat}
    {text : Bytes} (read : readRange data line text.length = some text)
    (stores : Stores record request blocks)
    (holds : heap.Holds (blocks + owned)) :
    Gives (Pointers.parseHeaderLine data line text.length record) heap
      (Leaves (CinderHTTP.parseHeaderLine text request heap.allocs)
        owned) := by
  unfold Pointers.parseHeaderLine CinderHTTP.parseHeaderLine
  simp only [List.length_eq_zero_iff]
  by_cases nothing : text = []
  · rw [if_pos nothing, if_pos nothing]
    exact .pure ⟨rfl, rfl, _, stores, holds⟩
  rw [if_neg nothing, if_neg nothing]
  apply (checked_gives (memchr_eq read colon)).andThen
  rintro _ _ ⟨rfl, rfl⟩
  cases cut : cutFirst colon text with
  | none => exact .pure ⟨rfl, rfl, _, stores, holds⟩
  | some parts =>
      obtain ⟨rawName, rawValue⟩ := parts
      obtain ⟨rfl, -⟩ := cutFirst_eq_some_iff.mp cut
      have nameRead := readRange_fieldName read
      simp only [Option.map_some, position_eq_iff]
      by_cases empty : rawName = []
      · rw [if_pos empty, if_pos empty]
        exact .pure ⟨rfl, rfl, _, stores, holds⟩
      rw [if_neg empty, if_neg empty]
      apply (checked_gives (subtractAll_offset line rawName.length)).andThen
      rintro _ _ ⟨rfl, rfl⟩
      apply (checked_gives (anyIn_eq _ nameRead)).andThen
      rintro _ _ ⟨rfl, rfl⟩
      by_cases blank : rawName.any (fun character => character == space ||
          character == tab || character == nul) = true
      · rw [if_pos blank, if_pos blank]
        exact .pure ⟨rfl, rfl, _, stores, holds⟩
      rw [if_neg blank, if_neg blank]
      apply (newText_gives holds nameRead rfl).andThen
      intro name named nameCopy
      cases nameCopy with
      | refused refused kept =>
          rw [refused]
          exact .pure ⟨rfl, rfl, _, stores, kept⟩
      | @granted _ name granted kept =>
          rw [granted]
          obtain ⟨valueStart, range, valueRead⟩ := valueRange_field read
          apply (checked_gives range).andThen
          rintro _ _ ⟨rfl, rfl⟩
          apply (checked_gives (occursIn_eq valueRead nul)).andThen
          rintro _ _ ⟨rfl, rfl⟩
          simp only [Bool.not_true, Bool.false_eq_true, if_false,
            decide_eq_true_eq]
          by_cases cutShort : nul ∈ trimOws rawValue
          · rw [if_pos cutShort, if_pos cutShort]
            apply (release_gives kept).andThen
            rintro _ after ⟨freed, same⟩
            exact .pure ⟨rfl, same, _, stores, freed⟩
          rw [if_neg cutShort, if_neg cutShort]
          apply (newText_gives kept valueRead rfl).andThen
          intro value valued valueCopy
          cases valueCopy with
          | refused refused both =>
              rw [refused]
              apply (release_gives both).andThen
              rintro _ after ⟨freed, same⟩
              exact .pure ⟨rfl, same, _, stores, freed⟩
          | @granted _ value granted both =>
              rw [granted]
              have copies : Entry.Reads
                  ⟨⟨name, textCells rawName⟩,
                    ⟨value, textCells (trimOws rawValue)⟩⟩
                  ⟨CinderHTTP.dupRange rawName,
                    CinderHTTP.dupRange (trimOws rawValue)⟩ :=
                ⟨cString_textCells rawName, cString_textCells _⟩
              apply appendHeader_gives stores copies
              apply both.rearrange
              rw [Entry.blocks, add_assoc, add_left_comm]

/-- The header loop in memory and the one on lists have the same lines ahead
of them, and have stored the same headers. -/
inductive Parsing (data : Bytes) (stop : Nat)
    (owned : Multiset (Block Cell))
    (expected : (HeaderLoopExit × Request) × Allocs) :
    Nat × RequestRecord → Heap Cell → Prop
  | mk {cursor : Nat} {record : RequestRecord} {request : Request}
      {rest : Bytes} {heap : Heap Cell} {blocks : Multiset (Block Cell)}
      (read : readRange data cursor rest.length = some rest)
      (reach : cursor + rest.length = stop)
      (ahead : parseHeaderLines rest request heap.allocs = expected)
      (stores : Stores record request blocks)
      (holds : heap.Holds (blocks + owned)) :
      Parsing data stop owned expected (cursor, record) heap

theorem headerTurn_done {stop : Nat} {state : Nat × RequestRecord}
    {exit : HeaderLoopExit} {record : RequestRecord} {request : Request}
    {blocks : Multiset (Block Cell)}
    {expected : (HeaderLoopExit × Request) × Allocs}
    (left : ((exit, request), heap.allocs) = expected)
    (stores : Stores record request blocks)
    (holds : heap.Holds (blocks + owned)) :
    Gives (pure (.done (exit, record))) heap fun step after =>
      GoodTurn (Parsing data stop owned expected · after)
        (fun later => stop - later.1) (Leaves expected owned · after) state
          step := by
  apply Gives.pure
  apply GoodTurn.done
  rw [← left]
  exact ⟨rfl, rfl, _, stores, holds⟩

theorem headerTurn_good {stop : Nat}
    {expected : (HeaderLoopExit × Request) × Allocs}
    {state : Nat × RequestRecord}
    (walking : Parsing data stop owned expected state heap) :
    Gives (headerTurn data stop state) heap fun step after =>
      GoodTurn (Parsing data stop owned expected · after)
        (fun later => stop - later.1) (Leaves expected owned · after) state
          step := by
  cases walking with
  | @mk cursor record request rest _ blocks read reach ahead stores holds =>
      obtain rfl := reach
      rw [parseHeaderLines] at ahead
      by_cases finished : rest = []
      · rw [if_pos finished] at ahead
        have stopped : ¬cursor < cursor + rest.length := by
          simp [finished]
        rw [headerTurn, if_neg stopped]
        exact headerTurn_done ahead stores holds
      have within : cursor < cursor + rest.length := by
        have nonempty := List.length_pos_iff.mpr finished
        omega
      rw [if_neg finished] at ahead
      rw [headerTurn, if_pos within]
      apply (checked_gives (lineEnd_eq read)).andThen
      rintro _ _ ⟨rfl, rfl⟩
      cases taken : takeLine rest with
      | none =>
          rw [taken] at ahead
          exact headerTurn_done ahead stores holds
      | some cut =>
          obtain ⟨line, later⟩ := cut
          have found := lineAt_of_takeLine read taken
          rw [taken] at ahead
          apply (checked_gives found.lineLen).andThen
          rintro _ _ ⟨rfl, rfl⟩
          apply (parseHeaderLine_gives found.front stores holds).andThen
          rintro ⟨result, written⟩ after leaves
          simp only at ahead
          generalize CinderHTTP.parseHeaderLine line request heap.allocs =
            listed at leaves ahead
          obtain ⟨⟨listed, partly⟩, allocs⟩ := listed
          obtain ⟨rfl, rfl, blocks, stores, kept⟩ := leaves
          cases result with
          | error failure => exact headerTurn_done ahead stores kept
          | ok _ =>
              apply Gives.pure
              apply GoodTurn.next
              · exact .mk found.behind found.reach ahead stores kept
              · have reach := found.reach
                simp only
                omega

/-! ## Whole messages -/

/-- The exit is the one on lists, and the record holds the request. -/
structure Settles (listed : ParseOutcome) (owned : Multiset (Block Cell))
    (result : Outcome) (after : Heap Cell) : Prop where
  exit : result.exit = listed.exit
  stored : ∃ blocks, Stores result.request listed.request blocks ∧
    after.Holds (blocks + owned)

theorem settles_init (exit : ParseExit) (holds : heap.Holds owned) :
    Settles { exit := exit, request := CinderHTTP.httpRequestInit } owned
      { exit := exit, request := Pointers.httpRequestInit } heap :=
  ⟨rfl, 0, stores_init, holds.rearrange (zero_add _).symm⟩

section

variable {record : RequestRecord} {request : Request}
  {blocks : Multiset (Block Cell)} (stores : Stores record request blocks)
  (holds : heap.Holds (blocks + owned))

include stores holds

theorem abort_gives (exit : ParseExit) :
    Gives (abort exit record) heap
      (Settles (parseAbort exit request) owned) := by
  apply (httpRequestDestroy_gives stores holds).andThen
  rintro _ after ⟨rfl, freed, -⟩
  exact .pure (settles_init exit freed)

theorem parseBody_gives {headerBytes expectedBody : Nat}
    (inside : headerBytes + expectedBody ≤ data.length)
    (bodiless : request.body = []) :
    Gives (Pointers.parseBody data headerBytes expectedBody record) heap
      (Settles (CinderHTTP.parseBody data headerBytes expectedBody request
        heap.allocs) owned) := by
  unfold CinderHTTP.parseBody
  apply (storedBodyLength_gives stores holds).andThen
  rintro _ _ ⟨rfl, rfl⟩
  cases CinderHTTP.storedBodyLength request with
  | error exit => exact abort_gives stores holds exit
  | ok bodyLength =>
      simp only
      by_cases mismatch : bodyLength ≠ expectedBody
      · rw [if_pos mismatch, if_pos mismatch]
        exact abort_gives stores holds _
      rw [if_neg mismatch, if_neg mismatch]
      obtain rfl := not_not.mp mismatch
      by_cases present : bodyLength > 0
      case neg =>
          rw [if_neg present, if_neg present]
          exact .pure ⟨rfl, _, stores, holds⟩
      rw [if_pos present, if_pos present]
      by_cases huge : bodyLength = 2 ^ 64 - 1
      · rw [if_pos huge, if_pos huge]
        exact abort_gives stores holds _
      rw [if_neg huge, if_neg huge]
      have read : readRange data headerBytes bodyLength =
          some ((data.drop headerBytes).take bodyLength) := if_pos inside
      have sized := readRange_length read
      apply (newText_gives holds read sized).andThen
      generalize (data.drop headerBytes).take bodyLength = bytes at sized ⊢
      intro copy after bodyCopy
      cases bodyCopy with
      | refused answer kept =>
          rw [answer]
          exact abort_gives stores kept _
      | @granted _ address answer kept =>
          rw [answer]
          have stored : Body (some address) bytes
              {{ address := address, cells := textCells bytes }} :=
            @Body.bytes { address := address, cells := textCells bytes } _
              (List.ne_nil_of_length_pos (by omega)) rfl
          cases stores with
          | mk method targetText versionText table count bodyBytes length =>
              rw [bodiless] at bodyBytes
              obtain ⟨-, rfl⟩ := bodyBytes.null_of_empty
              apply Gives.pure
              refine ⟨rfl, _, .mk method targetText versionText table count
                stored sized.symm, ?_⟩
              apply kept.rearrange
              abel

end

theorem parseSection_gives {terminator expectedBody : Nat}
    (inside : terminator + 4 + expectedBody ≤ data.length)
    (holds : heap.Holds owned) :
    Gives (Pointers.parseSection data terminator expectedBody) heap
      (Settles (CinderHTTP.parseSection data terminator expectedBody
        heap.allocs) owned) := by
  have fresh : heap.Holds (0 + owned) :=
    holds.rearrange (zero_add owned).symm
  have read : readRange data 0 (terminator + 2) =
      some (data.take (terminator + 2)) := if_pos (by omega)
  have ends := lineEnd_eq read
  rw [Nat.zero_add] at ends
  unfold CinderHTTP.parseSection
  apply (checked_gives ends).andThen
  rintro _ _ ⟨rfl, rfl⟩
  cases taken : takeLine (data.take (terminator + 2)) with
  | none => exact abort_gives stores_init fresh _
  | some cut =>
      obtain ⟨line, rest⟩ := cut
      have found := lineAt_of_takeLine read taken
      apply (checked_gives found.lineLen).andThen
      rintro _ _ ⟨rfl, rfl⟩
      apply (parseRequestLine_gives found.front holds).andThen
      rintro ⟨result, written⟩ after leaves
      simp only
      generalize parsed : CinderHTTP.parseRequestLine line
        CinderHTTP.httpRequestInit heap.allocs = listed at leaves
      obtain ⟨⟨listed, stored⟩, later⟩ := listed
      obtain ⟨rfl, rfl, blocks, stores, kept⟩ := leaves
      cases result with
      | error failure => exact abort_gives stores kept _
      | ok _ =>
          obtain ⟨_, _, _, -, -, -, -, -, -, -, rfl⟩ :=
            parseRequestLine_ok parsed
          have reach := found.reach
          apply (iterate_gives (fun _ _ => headerTurn_good)
            (.mk found.behind (by omega) rfl stores kept)
            (by simp only; omega)).andThen
          rintro ⟨exit, final⟩ last leaves
          simp only
          generalize walked : parseHeaderLines rest _ after.allocs = listed
            at leaves
          obtain ⟨⟨listed, request⟩, allocs⟩ := listed
          obtain ⟨rfl, rfl, blocks, stores, kept⟩ := leaves
          cases exit with
          | unterminated => exact abort_gives stores kept _
          | refused failure => exact abort_gives stores kept _
          | finished =>
              obtain ⟨_, -, -, -, rfl⟩ :=
                parseHeaderLines_finished (Nat.zero_le _) walked
              exact parseBody_gives stores kept inside rfl

/-- For every message and every pattern of failing allocations. -/
theorem httpParseRequest_gives (holds : heap.Holds owned) :
    Gives (Pointers.httpParseRequest data) heap
      (Settles (CinderHTTP.httpParseRequest data heap.allocs) owned) := by
  unfold Pointers.httpParseRequest CinderHTTP.httpParseRequest
  simp only [List.length_eq_zero_iff]
  by_cases empty : data = []
  · rw [if_pos empty, if_pos empty]
    exact .pure (settles_init _ holds)
  rw [if_neg empty, if_neg empty]
  apply (checked_gives httpFindHeaderTerminator_eq).andThen
  rintro _ _ ⟨rfl, rfl⟩
  cases found : CinderHTTP.httpFindHeaderTerminator data with
  | none => exact .pure (settles_init _ holds)
  | some terminator =>
      simp only
      by_cases large : terminator + 4 > httpMaxHeaderBytes
      · rw [if_pos large, if_pos large]
        exact .pure (settles_init _ holds)
      rw [if_neg large, if_neg large]
      have bound : 0 + (terminator + 4) ≤ data.length := by
        have ends := findInfix_bound found
        rw [Nat.zero_add]
        exact ends
      have header : readRange data 0 (terminator + 4) =
          some (data.take (terminator + 4)) := if_pos bound
      apply (httpInspectMessageFraming_gives header holds).andThen
      intro result after agrees
      generalize CinderHTTP.httpInspectMessageFraming
        (data.take (terminator + 4)) heap.allocs = listed at agrees
      obtain ⟨listed, allocs⟩ := listed
      obtain ⟨rfl, rfl, kept⟩ := agrees
      cases result with
      | error failure => exact .pure (settles_init _ kept)
      | ok expectedBody =>
          simp only
          split_ifs
          · exact .pure (settles_init _ kept)
          · exact .pure (settles_init _ kept)
          · exact parseSection_gives (by omega) kept

end

/-- Whatever the message is and whichever allocations fail, the parser does
nothing undefined and ends as the parser on lists does.  A message that is
refused leaves nothing in memory, and destroying the request gives back what
an accepted one has taken. -/
theorem httpParseRequest_memorySafe (data : Bytes) (heap : Heap Cell) :
    Gives (Pointers.httpParseRequest data) heap fun outcome after =>
      outcome.exit =
          (CinderHTTP.httpParseRequest data heap.allocs).exit ∧
        ∃ blocks,
          Stores outcome.request
            (CinderHTTP.httpParseRequest data heap.allocs).request blocks ∧
          after.Holds (blocks + heap.blocks) ∧
          (outcome.exit ≠ .parsed → blocks = 0) ∧
          Gives (Pointers.httpRequestDestroy outcome.request) after
            fun _ last => last.Holds heap.blocks := by
  have start : heap.Holds heap.blocks := rfl
  apply (httpParseRequest_gives start).weaken
  rintro outcome after ⟨exit, blocks, stores, holds⟩
  refine ⟨exit, blocks, stores, holds, ?_, ?_⟩
  · intro refused
    have clean := httpParseRequest_clean data heap.allocs
    rcases clean with parsed | fresh
    · exact absurd (exit.trans parsed) refused
    · rw [fresh] at stores
      exact stores.nothing
  · apply (httpRequestDestroy_gives stores holds).weaken
    rintro _ last ⟨-, freed, -⟩
    exact freed

-- An accepted message has its target, its version, the array and two strings
-- for each header.
example : ((Pointers.httpParseRequest
      (ascii "GET / HTTP/1.1\r\nHost: a\r\n\r\n")
      ⟨[], 0, [], List.nodup_nil, by simp⟩).map fun result =>
        (result.1.exit, result.2.blocks.length)) = some (.parsed, 5) := by
  decide +kernel

end Pointers

end CinderHTTP
