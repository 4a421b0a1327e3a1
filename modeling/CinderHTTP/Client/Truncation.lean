import CinderHTTP.Client.Synchronization
import CinderHTTP.Response.Equivalence

/-!
# Broken sends

Whatever fails while a connection is served, a client that cuts the bytes at
blank lines and announced lengths never takes something else for a response:
it gets the responses that were sent completely, and then at most a beginning
of one more that it can tell is unfinished.
-/

namespace CinderHTTP

/-! ## Sends that fail -/

/-- A beginning of a text that ends before the announced length. -/
structure Torn (text sent : Bytes) (announced : Nat) : Prop where
  front : sent <+: text
  short : sent.length < announced

theorem Torn.behind {first second sent : Bytes} {announced : Nat}
    (torn : Torn second sent announced) :
    Torn (first ++ second) (first ++ sent) (first.length + announced) := by
  constructor
  · exact (List.prefix_append_right_inj first).mpr torn.front
  · rw [List.length_append]
    exact Nat.add_lt_add_left torn.short _

theorem sendAll_torn {buffer : Bytes} {script : List SendAnswer}
    (failed : (sendAll buffer script).success = false) :
    Torn buffer (sendAll buffer script).sent buffer.length := by
  refine ⟨sendAll_front buffer script, ?_⟩
  fun_induction sendAll buffer script with
  | case1 => cases failed
  | case2 => cases failed
  | case3 buffer script nonempty induction => exact induction failed
  | case4 buffer script nonempty => exact List.length_pos_iff.mpr nonempty
  | case5 buffer script nonempty => exact List.length_pos_iff.mpr nonempty
  | case6 buffer script nonempty size count rest induction =>
      have short := induction failed
      rw [List.length_drop] at short
      rw [List.length_append, List.length_take]
      change min count buffer.length + rest.sent.length < buffer.length
      change rest.sent.length < _ at short
      omega

/-- The offset counts the bytes sent, and stays below the length when the
loop is left with an error. -/
theorem sendfileLoop_offset {content : Bytes} {length offset : Nat}
    {script : List SendfileAnswer} (within : offset ≤ length) :
    (sendfileLoop content length offset script).offset =
        offset + (sendfileLoop content length offset script).sent.length ∧
      (sendfileLoop content length offset script).offset ≤ length ∧
      ((sendfileLoop content length offset script).left = false →
        (sendfileLoop content length offset script).offset < length) := by
  fun_induction sendfileLoop content length offset script with
  | case1 offset bytes =>
      have short : bytes.length ≤ length - offset :=
        fileBytes_length_le content offset (length - offset)
      have inside : offset + bytes.length ≤ length := by omega
      refine ⟨rfl, inside, ?_⟩
      intro left
      have missing : bytes.length ≠ length - offset := by simpa using left
      have below : offset + bytes.length < length := by omega
      exact below
  | case2 offset => exact ⟨rfl, within, fun left => by cases left⟩
  | case3 offset script more induction => exact induction within
  | case4 offset script more =>
      exact ⟨rfl, within, fun _ => Nat.lt_of_sub_ne_zero more⟩
  | case5 offset script more =>
      exact ⟨rfl, within, fun _ => Nat.lt_of_sub_ne_zero more⟩
  | case6 offset script more =>
      exact ⟨rfl, within, fun _ => Nat.lt_of_sub_ne_zero more⟩
  | case7 offset script more =>
      exact ⟨rfl, within, fun _ => Nat.lt_of_sub_ne_zero more⟩
  | case8 offset script more size bytes some rest induction =>
      have asked : min (max size 1) (length - offset) ≤ length - offset :=
        Nat.min_le_right _ _
      have short : bytes.length ≤ length - offset :=
        Nat.le_trans (fileBytes_length_le _ _ _) asked
      obtain ⟨counted, inside, unfinished⟩ := induction (by omega)
      refine ⟨?_, inside, unfinished⟩
      rw [List.length_append, ← Nat.add_assoc]
      exact counted

theorem copyLoop_short {content : Bytes} {position remaining : Nat}
    {reads : List ReadAnswer} {sends : List SendAnswer}
    (failed : (copyLoop content position remaining reads sends).success =
      false) :
    (copyLoop content position remaining reads sends).sent.length <
      remaining := by
  fun_induction copyLoop content position remaining reads sends with
  | case1 => cases failed
  | case2 position remaining reads sends filled want answer induction =>
      exact induction failed
  | case3 position remaining reads sends filled =>
      exact Nat.pos_of_ne_zero filled
  | case4 position remaining reads sends filled =>
      exact Nat.pos_of_ne_zero filled
  | case5 position remaining reads sends filled =>
      exact Nat.pos_of_ne_zero filled
  | case6 position remaining reads sends filled want size answer chunk =>
      rename_i some chunkSent broken
      have asked : chunk.length ≤ remaining :=
        Nat.le_trans (fileBytes_length_le _ _ _)
          (Nat.le_trans (Nat.min_le_right _ _) (Nat.min_le_left _ _))
      have torn := (sendAll_torn failed).short
      exact Nat.lt_of_lt_of_le torn asked
  | case7 position remaining reads sends filled want size answer chunk =>
      rename_i some chunkSent passed rest induction
      have asked : chunk.length ≤ remaining :=
        Nat.le_trans (fileBytes_length_le _ _ _)
          (Nat.le_trans (Nat.min_le_right _ _) (Nat.min_le_left _ _))
      have whole : chunkSent.sent = chunk :=
        sendAll_success (by simpa using passed)
      have short := induction failed
      rw [whole, List.length_append]
      change rest.sent.length < remaining - chunk.length at short
      omega

theorem sendFileBody_torn {file : OpenFile} {length : Nat}
    {transfer : Transfer}
    (failed : (sendFileBody file length transfer).success = false) :
    Torn (file.content.take length) (sendFileBody file length transfer).sent
      length := by
  have short : (sendFileBody file length transfer).sent.length < length := by
    unfold sendFileBody at failed ⊢
    by_cases empty : length = 0
    · rw [if_pos empty] at failed
      cases failed
    rw [if_neg empty] at failed ⊢
    obtain ⟨counted, inside, unfinished⟩ := @sendfileLoop_offset
      file.content length 0 transfer.sendfiles (Nat.zero_le length)
    simp only at failed ⊢
    generalize sendfileLoop file.content length 0 transfer.sendfiles = fast
      at failed counted inside unfinished ⊢
    rw [Nat.zero_add] at counted
    split_ifs at failed ⊢ with error complete noSeek
    · rw [← counted]
      exact unfinished (by simpa using error)
    · rw [← counted]
      exact Nat.lt_of_le_of_ne inside complete
    · have rest := copyLoop_short failed
      rw [List.length_append, ← counted]
      omega
  obtain ⟨later, reachable⟩ :=
    StreamReachable.sendFileBody file length transfer
  refine ⟨List.prefix_take_iff.mpr ⟨?_, Nat.le_of_lt short⟩, short⟩
  have streamed := reachable.streamed
  rw [failed] at streamed
  generalize (sendFileBody file length transfer).sent = sent at streamed ⊢
  cases streamed with
  | failed position front bounded => exact front

theorem sendBody_torn {response : Response} {transfer : Transfer}
    (matched : response.BodyMatches)
    (failed : (sendBody response transfer).success = false) :
    Torn (bodyBytes response) (sendBody response transfer).sent
      response.bodyLength := by
  unfold sendBody at failed ⊢
  unfold bodyBytes
  unfold Response.BodyMatches at matched
  cases kind : response.bodyKind with
  | none => simp only [kind] at failed; cases failed
  | memory =>
      simp only [kind] at matched failed ⊢
      obtain ⟨body, held, length⟩ := matched
      simp only [held, ← length, List.take_length, Option.getD_some]
        at failed ⊢
      split_ifs at failed ⊢ with empty
      exact sendAll_torn failed
  | file =>
      simp only [kind] at matched failed ⊢
      obtain ⟨descriptor, held⟩ := Option.isSome_iff_exists.mp matched
      simp only [held] at failed ⊢
      exact sendFileBody_torn failed

/-- A response whose send fails is never on the socket as a whole. -/
theorem httpResponseSend_torn {response : Response} {omitBody : Bool}
    {process : Process} {transfer : Transfer}
    (matched : response.BodyMatches)
    (failed : (httpResponseSend response omitBody process
      transfer).1.success = false) :
    Torn (serializedBytes response ++
        (if omitBody then [] else bodyBytes response))
      (httpResponseSend response omitBody process transfer).1.sent
      ((serializedBytes response).length +
        if omitBody then 0 else response.bodyLength) := by
  have long := serializedBytes_long response
  unfold httpResponseSend at failed ⊢
  rcases serialized : httpResponseSerializeHeaders response process with
    ⟨_ | headers, later⟩
  · refine ⟨List.nil_prefix, ?_⟩
    rw [List.length_nil]
    omega
  obtain rfl := httpResponseSerializeHeaders_some serialized
  simp only [serialized] at failed ⊢
  by_cases headSent :
      (sendAll (serializedBytes response) transfer.sends).success = true
  · have head := sendAll_success headSent
    simp only [headSent, Bool.not_true, Bool.false_eq_true, if_false]
      at failed ⊢
    cases omitBody with
    | true => cases failed
    | false =>
        simp only [Bool.false_eq_true, if_false] at failed ⊢
        rw [head]
        exact (sendBody_torn matched failed).behind
  · rw [Bool.not_eq_true] at headSent
    have torn := sendAll_torn headSent
    simp only [headSent, Bool.not_false, if_true]
    constructor
    · exact torn.front.trans (List.prefix_append _ _)
    · exact Nat.lt_add_right _ torn.short

/-! ## The client -/

/-- The responses to a sequence of requests as far as they are complete, and
the bytes behind them. -/
def readResponses : List Bool → Bytes → List (Bytes × Bytes) × Bytes
  | [], bytes => ([], bytes)
  | head :: heads, bytes =>
      match decodeResponse head bytes with
      | none => ([], bytes)
      | some (message, rest) =>
          let later := readResponses heads rest
          (message :: later.1, later.2)

/-- A torn header section has no blank line. -/
theorem findInfix_torn {response : Response} {sent : Bytes}
    (tidy : response.Tidy) (front : sent <+: serializedBytes response)
    (short : sent.length < (serializedBytes response).length) :
    findInfix blankLine sent = none := by
  cases found : findInfix blankLine sent with
  | none => rfl
  | some index =>
      obtain ⟨rest, whole⟩ := front
      have last := findInfix_serialized tidy []
      rw [List.append_nil, ← whole, findInfix_append found rest,
        Option.some.injEq] at last
      have bound : index + 4 ≤ sent.length := findInfix_bound found
      rw [whole] at last
      omega

/-- The client sees that a torn response is not complete. -/
theorem decodeResponse_torn {response : Response} {head : Bool}
    {sent : Bytes} (presentable : response.Presentable)
    (torn : Torn (serializedBytes response ++
        (if head then [] else bodyBytes response)) sent
      ((serializedBytes response).length +
        if head then 0 else response.bodyLength)) :
    decodeResponse head sent = none := by
  by_cases short : sent.length < (serializedBytes response).length
  · have front : sent <+: serializedBytes response :=
      List.prefix_of_prefix_length_le torn.front (List.prefix_append _ _)
        (Nat.le_of_lt short)
    rw [decodeResponse, findInfix_torn presentable.tidy front short]
  · obtain ⟨part, rfl⟩ : serializedBytes response <+: sent :=
      List.prefix_of_prefix_length_le (List.prefix_append _ _) torn.front
        (Nat.le_of_not_lt short)
    have long := serializedBytes_long response
    have cut : (serializedBytes response).length - 4 + 4 =
        (serializedBytes response).length := Nat.sub_add_cancel long
    have missing := torn.short
    rw [List.length_append] at missing
    cases head with
    | true =>
        rw [if_pos rfl] at missing
        omega
    | false =>
        rw [if_neg (by simp)] at missing
        unfold decodeResponse
        rw [findInfix_serialized presentable.tidy]
        simp only [cut, List.take_left, List.drop_left,
          announcedBodyLength_serialized presentable, Bool.false_eq_true,
          if_false]
        rw [if_pos (by omega)]

/-! ## Runs -/

/-- A pass whose send fails has put a beginning of its response on the
socket, and is the last one. -/
theorem clientIteration_torn {config : ServerConfig} {exchange : Exchange}
    {state : ClientState}
    (failed : (clientIteration config exchange state).sendsSucceed =
      false) :
    ∃ response, (clientIteration config exchange state).handed =
        some response ∧
      (clientIteration config exchange state).output <+:
        serializedBytes response ++
          (if parsedAsHead (clientIteration config exchange state).parsed
            then [] else bodyBytes response) ∧
      decodeResponse
          (parsedAsHead (clientIteration config exchange state).parsed)
          (clientIteration config exchange state).output = none ∧
      (clientIteration config exchange state).continues = false := by
  cases delivered : (clientIteration config exchange state).delivery with
  | none =>
      rw [Iteration.sendsSucceed, delivered] at failed
      cases failed
  | some delivery =>
      rw [Iteration.sendsSucceed, delivered] at failed
      simp only [Bool.or_eq_false_iff, Option.isNone_eq_false_iff] at failed
      obtain ⟨response, given⟩ := Option.isSome_iff_exists.mp failed.1
      have handover := clientIteration_handover delivered given
      obtain ⟨process, transfer, sent⟩ := handover.sent
      have broken := failed.2
      rw [sent] at broken
      have torn := httpResponseSend_torn handover.presentable.body broken
      have output : (clientIteration config exchange state).output =
          delivery.sending.sent := by
        rw [Iteration.output, delivered]
      rw [← sent, handover.head, ← output] at torn
      refine ⟨response, ?_, torn.front, ?_, ?_⟩
      · rw [Iteration.handed, delivered, Option.bind_some, given]
      · exact decodeResponse_torn handover.presentable torn
      · rw [Bool.eq_false_iff]
        intro continued
        have success := (handover.persists.mp continued).2
        rw [failed.2] at success
        cases success

theorem readResponses_pass {config : ServerConfig} {exchange : Exchange}
    {state : ClientState}
    (success : (clientIteration config exchange state).sendsSucceed = true)
    (heads : List Bool) (rest : Bytes) :
    readResponses
        ((clientIteration config exchange state).answersHead.toList ++ heads)
        ((clientIteration config exchange state).output ++ rest) =
      ((clientIteration config exchange state).message.toList ++
          (readResponses heads rest).1,
        (readResponses heads rest).2) := by
  cases handed : (clientIteration config exchange state).handed with
  | none =>
      rw [clientIteration_silent handed]
      simp only [Iteration.answersHead, Iteration.message, handed,
        Option.map_none, Option.toList_none, List.nil_append]
  | some response =>
      obtain ⟨presentable, output, complete⟩ :=
        clientIteration_output handed success
      simp only [Iteration.answersHead, Iteration.message, handed,
        Option.map_some, Option.toList_some, List.singleton_append]
      rw [readResponses, output, decodeResponse_append presentable complete]

/-- What a client can make of the bytes of a connection: the passes with a
complete response, and at most one behind them with a torn one. -/
structure Legible (run sent broken : List Iteration) : Prop where
  split : run = sent ++ broken
  complete : ∀ iteration ∈ sent, iteration.sendsSucceed = true
  once : broken.length ≤ 1
  torn : ∀ iteration ∈ broken, iteration.sendsSucceed = false ∧
    ∃ message, iteration.message = some message ∧
      iteration.output <+: message.1 ++ message.2
  read : readResponses (run.filterMap Iteration.answersHead)
      (run.flatMap Iteration.output) =
    (sent.filterMap Iteration.message, broken.flatMap Iteration.output)

theorem Legible.pass {run sent broken : List Iteration}
    {config : ServerConfig} {exchange : Exchange} {state : ClientState}
    (legible : Legible run sent broken)
    (success : (clientIteration config exchange state).sendsSucceed =
      true) :
    Legible (clientIteration config exchange state :: run)
      (clientIteration config exchange state :: sent) broken := by
  have front := readResponses_pass success
    (run.filterMap Iteration.answersHead) (run.flatMap Iteration.output)
  generalize clientIteration config exchange state = iteration
    at success front ⊢
  rw [legible.read] at front
  constructor
  · rw [legible.split, List.cons_append]
  · intro other member
    rcases List.mem_cons.mp member with rfl | member
    · exact success
    · exact legible.complete other member
  · exact legible.once
  · exact legible.torn
  · simp only [List.filterMap_eq_flatMap_toList, List.flatMap_cons]
      at front ⊢
    exact front

theorem legible_torn {config : ServerConfig} {exchange : Exchange}
    {state : ClientState}
    (failed : (clientIteration config exchange state).sendsSucceed =
      false) :
    Legible [clientIteration config exchange state] []
      [clientIteration config exchange state] := by
  obtain ⟨response, handed, front, unread, _⟩ := clientIteration_torn failed
  generalize clientIteration config exchange state = iteration
    at failed handed front unread ⊢
  have message : iteration.message = some (serializedBytes response,
      if parsedAsHead iteration.parsed then [] else bodyBytes response) := by
    rw [Iteration.message, handed, Option.map_some]
  have head : iteration.answersHead =
      some (parsedAsHead iteration.parsed) := by
    rw [Iteration.answersHead, handed, Option.map_some]
  refine ⟨rfl, by simp, Nat.le_refl 1, ?_, ?_⟩
  · intro other member
    obtain rfl := List.mem_singleton.mp member
    exact ⟨failed, _, message, front⟩
  · simp [head, readResponses, unread]

theorem clientLoop_legible (config : ServerConfig) (env : Nat → Exchange)
    (state : ClientState) :
    ∃ sent broken, Legible (clientLoop config env state) sent broken := by
  fun_induction clientLoop config env state with
  | case1 env state iteration continued induction =>
      obtain ⟨sent, broken, legible⟩ := induction
      have success : iteration.sendsSucceed = true := by
        by_contra failed
        rw [Bool.not_eq_true] at failed
        obtain ⟨_, _, _, _, stopped⟩ := clientIteration_torn failed
        exact absurd continued (Bool.eq_false_iff.mp stopped)
      exact ⟨iteration :: sent, broken, legible.pass success⟩
  | case2 env state iteration _ =>
      cases success : iteration.sendsSucceed with
      | true =>
          have nothing : Legible [] [] [] :=
            ⟨rfl, by simp, by simp, by simp, rfl⟩
          exact ⟨[iteration], [], nothing.pass success⟩
      | false =>
          exact ⟨[], [iteration], legible_torn success⟩

/-- On every connection, whatever fails, the client's rule recovers exactly
the responses that were sent as a whole.  Behind them is nothing, or an
unfinished beginning of the next response. -/
theorem clientHandle_legible (config : ServerConfig)
    (env : Nat → Exchange) (stream : Bytes) :
    ∃ sent broken,
      Legible (clientHandle config env stream) sent broken := by
  exact clientLoop_legible config env _

end CinderHTTP
