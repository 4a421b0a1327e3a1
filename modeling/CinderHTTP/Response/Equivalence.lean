import CinderHTTP.Connection.Policy
import CinderHTTP.Response.Ownership
import CinderHTTP.Response.Wire

/-!
# The sender and the serializer

`http_response_serialize` joins the header section and a body in memory to one
buffer.  `http_response_send` sends them one behind the other, with tests of
its own for an empty body, and the kernel may accept a part of each call or
fail.  For every response that the functions of `http_response.c` can build,
the bytes on the socket are a beginning of that buffer, and the whole of it
when the sender reports success.
-/

namespace CinderHTTP

/-! ## Responses that can be built -/

/-- An `int` argument. -/
def InIntRange (number : Int) : Prop :=
  -2 ^ 31 ≤ number ∧ number < 2 ^ 31

instance (number : Int) : Decidable (InIntRange number) :=
  inferInstanceAs (Decidable (_ ∧ _))

/-- The arguments of a call are in the range of their types. -/
def ResponseOp.InRange : ResponseOp → Prop
  | .setStatus statusCode => InIntRange statusCode
  | .setBodyOwned _ length => length < 2 ^ 64
  | .setBodyText text => ∀ bytes ∈ text, bytes.length < 2 ^ 64
  | .setBodyCopy _ length => length < 2 ^ 64
  | .buildText statusCode text =>
      InIntRange statusCode ∧ ∀ bytes ∈ text, bytes.length < 2 ^ 64
  | .buildJson statusCode text =>
      InIntRange statusCode ∧ ∀ bytes ∈ text, bytes.length < 2 ^ 64
  | _ => True

/-- What sequences of calls make of a fresh response, also when some of them
fail. -/
inductive Response.Built : Response → Prop
  | init : Built httpResponseInit
  | call {response : Response} (op : ResponseOp) (process : Process) :
      Built response → op.InRange → Built (op.run response process).1.2
  | policy {response : Response} (keepAlive : Bool)
      (version : Option Bytes) (process : Process) :
      Built response → Built (httpResponseApplyConnectionPolicy response
        keepAlive version process).1.2

/-- The status was set by `http_response_set_status`, and the numbers are
those of the types of the source. -/
structure Response.InRange (response : Response) : Prop where
  reason : response.reasonPhrase = httpReasonPhrase response.statusCode
  code : InIntRange response.statusCode
  size : response.bodyLength < 2 ^ 64

namespace Response.InRange

variable {response : Response}

theorem init : httpResponseInit.InRange :=
  ⟨rfl, by decide, by decide⟩

theorem setStatus (inRange : response.InRange) {statusCode : Int}
    (code : InIntRange statusCode) :
    (httpResponseSetStatus response statusCode).InRange :=
  ⟨rfl, code, inRange.size⟩

theorem addHeader (inRange : response.InRange) (name value : Bytes)
    (process : Process) :
    (httpResponseAddHeader response name value process).1.2.InRange := by
  rcases httpResponseAddHeader_cases response name value process with
    added | refused
  · rw [added]
    exact ⟨inRange.reason, inRange.code, inRange.size⟩
  · rw [refused]
    exact inRange

theorem removeHeader (inRange : response.InRange) (name : Bytes) :
    (httpResponseRemoveHeader response name).2.InRange :=
  ⟨inRange.reason, inRange.code, inRange.size⟩

theorem setHeader (inRange : response.InRange) (name value : Bytes)
    (process : Process) :
    (httpResponseSetHeader response name value process).1.2.InRange :=
  (inRange.removeHeader name).addHeader name value process

theorem setBodyOwned (inRange : response.InRange) (body : Option Bytes)
    {length : Nat} (size : length < 2 ^ 64) (process : Process) :
    (httpResponseSetBodyOwned response body length
      process).1.2.InRange := by
  unfold httpResponseSetBodyOwned
  simp only
  split_ifs
  · exact ⟨inRange.reason, inRange.code, Nat.two_pow_pos 64⟩
  · exact ⟨inRange.reason, inRange.code, size⟩

theorem setBodyText (inRange : response.InRange) {text : Option Bytes}
    (size : ∀ bytes ∈ text, bytes.length < 2 ^ 64) (process : Process) :
    (httpResponseSetBodyText response text process).1.2.InRange := by
  cases text with
  | none => exact inRange.setBodyOwned none (Nat.two_pow_pos 64) process
  | some bytes =>
      unfold httpResponseSetBodyText
      simp only
      split_ifs
      · exact inRange
      · exact inRange.setBodyOwned _ (size bytes rfl) _

theorem setBodyCopy (inRange : response.InRange) (body : Option Bytes)
    {length : Nat} (size : length < 2 ^ 64) (process : Process) :
    (httpResponseSetBodyCopy response body length
      process).1.2.InRange := by
  unfold httpResponseSetBodyCopy
  split_ifs
  · exact inRange.setBodyOwned none (Nat.two_pow_pos 64) process
  cases body with
  | none => exact inRange
  | some bytes =>
      simp only
      split_ifs
      · exact inRange
      · exact inRange.setBodyOwned _ size _

theorem setFileBody (inRange : response.InRange) (descriptor : Descriptor)
    (size : Int) (process : Process) :
    (httpResponseSetFileBody response descriptor size
      process).1.2.InRange := by
  unfold httpResponseSetFileBody
  split_ifs with negative large
  · exact inRange
  · exact inRange
  · refine ⟨inRange.reason, inRange.code, ?_⟩
    have bounded : size ≤ 2 ^ 64 - 1 := Int.not_lt.mp large
    change size.toNat < 2 ^ 64
    omega

theorem buildWithType (contentType : Bytes) (response : Response)
    {statusCode : Int} (code : InIntRange statusCode) {text : Option Bytes}
    (size : ∀ bytes ∈ text, bytes.length < 2 ^ 64) (process : Process) :
    (CinderHTTP.buildWithType contentType response statusCode text
      process).1.2.InRange := by
  have fresh := init.setStatus code
  unfold CinderHTTP.buildWithType httpResponseDestroy
  cases text with
  | none => exact fresh.addHeader _ _ _
  | some bytes =>
      have filled := fresh.setBodyText size (clearBody response process).2
      simp only
      split_ifs
      · exact filled
      · exact filled.addHeader _ _ _

theorem call (inRange : response.InRange) {op : ResponseOp}
    (typed : op.InRange) (process : Process) :
    (op.run response process).1.2.InRange := by
  cases op with
  | setStatus statusCode => exact inRange.setStatus typed
  | addHeader name value => exact inRange.addHeader name value process
  | removeHeader name => exact inRange.removeHeader name
  | setHeader name value => exact inRange.setHeader name value process
  | setBodyOwned body length => exact inRange.setBodyOwned body typed process
  | setBodyText text => exact inRange.setBodyText typed process
  | setBodyCopy body length => exact inRange.setBodyCopy body typed process
  | setFileBody fd size =>
      cases fd with
      | none => exact inRange
      | some descriptor => exact inRange.setFileBody descriptor size process
  | buildText statusCode text =>
      exact buildWithType _ response typed.1 typed.2 process
  | buildJson statusCode text =>
      exact buildWithType _ response typed.1 typed.2 process
  | destroy => exact init

theorem policy (inRange : response.InRange) (keepAlive : Bool)
    (version : Option Bytes) (process : Process) :
    (httpResponseApplyConnectionPolicy response keepAlive version
      process).1.2.InRange := by
  have cleared (suppress : Bool) : { response with
      suppressAutoConnectionClose := suppress }.InRange :=
    ⟨inRange.reason, inRange.code, inRange.size⟩
  unfold httpResponseApplyConnectionPolicy
  split_ifs
  · exact (cleared false).setHeader _ _ _
  · exact (cleared false).setHeader _ _ _
  · exact (cleared true).removeHeader _

theorem of_built (built : response.Built) : response.InRange := by
  induction built with
  | init => exact init
  | call op process _ typed induction => exact induction.call typed process
  | policy keepAlive version process _ induction =>
      exact induction.policy keepAlive version process

theorem fits (inRange : response.InRange) : response.Fits :=
  fits_of_range inRange.reason inRange.code inRange.size

end Response.InRange

/-! ## One buffer and several calls -/

/-- What the serializer puts behind the header section. -/
def joinedBody (response : Response) (omitBody : Bool) : Bytes :=
  if omitBody then [] else bodyBytes response

theorem httpResponseSerialize_granted {response : Response}
    {process : Process} (fits : response.Fits)
    (inMemory : response.bodyKind ≠ .file) (granted : process.allocs = [])
    (omitBody : Bool) :
    (httpResponseSerialize response omitBody process).1 =
      some (serializedBytes response ++ joinedBody response omitBody) := by
  unfold httpResponseSerialize joinedBody bodyBytes
  rw [httpResponseSerializeHeaders_granted fits granted]
  cases kind : response.bodyKind with
  | file => exact absurd kind inMemory
  | none =>
      cases response.body <;> simp
  | memory =>
      cases held : response.body with
      | none => simp
      | some body =>
          cases omitBody with
          | true => simp
          | false =>
              by_cases empty : response.bodyLength = 0
              · simp [empty]
              · simp [Nat.pos_of_ne_zero empty,
                  Process.malloc_granted granted]

/-- Whatever `send` answers, the bytes sent are a beginning of the buffer. -/
theorem sendAll_front (buffer : Bytes) (script : List SendAnswer) :
    (sendAll buffer script).sent <+: buffer := by
  fun_induction sendAll buffer script with
  | case1 buffer => exact List.prefix_refl buffer
  | case2 => exact List.nil_prefix
  | case3 buffer script nonempty induction => exact induction
  | case4 => exact List.nil_prefix
  | case5 => exact List.nil_prefix
  | case6 buffer script nonempty size count rest induction =>
      have behind :=
        (List.prefix_append_right_inj (buffer.take count)).mpr induction
      rwa [List.take_append_drop] at behind

/-- What was sent of a text: a beginning of it, and all of it on success. -/
structure Transmitted (text sent : Bytes) (success : Bool) : Prop where
  front : sent <+: text
  whole : success = true → sent = text

theorem sendAll_transmitted (buffer : Bytes) (script : List SendAnswer) :
    Transmitted buffer (sendAll buffer script).sent
      (sendAll buffer script).success :=
  ⟨sendAll_front buffer script, sendAll_success⟩

theorem Transmitted.behind {first second sent : Bytes} {success : Bool}
    (transmitted : Transmitted second sent success) :
    Transmitted (first ++ second) (first ++ sent) success :=
  ⟨(List.prefix_append_right_inj first).mpr transmitted.front,
    fun complete => congrArg (first ++ ·) (transmitted.whole complete)⟩

theorem sendBody_transmitted {response : Response}
    (inMemory : response.bodyKind ≠ .file)
    (present : 0 < response.bodyLength → response.body ≠ none)
    (transfer : Transfer) :
    Transmitted (bodyBytes response) (sendBody response transfer).sent
      (sendBody response transfer).success := by
  unfold sendBody bodyBytes
  cases kind : response.bodyKind with
  | file => exact absurd kind inMemory
  | none => exact ⟨ List.nil_prefix, fun _ => rfl⟩
  | memory =>
      simp only
      by_cases empty : response.bodyLength = 0
      · rw [if_pos empty, empty, List.take_zero]
        exact ⟨ List.nil_prefix, fun _ => rfl⟩
      · obtain ⟨body, held⟩ := Option.ne_none_iff_exists'.mp
          (present (Nat.pos_of_ne_zero empty))
        rw [if_neg empty, held]
        exact sendAll_transmitted _ _

theorem httpResponseSend_transmitted {response : Response} {process : Process}
    (fits : response.Fits) (inMemory : response.bodyKind ≠ .file)
    (present : 0 < response.bodyLength → response.body ≠ none)
    (granted : process.allocs = []) (omitBody : Bool)
    (transfer : Transfer) :
    Transmitted (serializedBytes response ++ joinedBody response omitBody)
      (httpResponseSend response omitBody process transfer).1.sent
      (httpResponseSend response omitBody process transfer).1.success := by
  have head := sendAll_transmitted (serializedBytes response) transfer.sends
  unfold httpResponseSend joinedBody
  rw [httpResponseSerializeHeaders_granted fits granted]
  simp only
  generalize sendAll (serializedBytes response) transfer.sends = result
    at head ⊢
  obtain ⟨success, sent, script⟩ := result
  cases success with
  | false =>
      refine ⟨head.front.trans (List.prefix_append _ _), ?_⟩
      intro complete
      cases complete
  | true =>
      obtain rfl := head.whole rfl
      cases omitBody with
      | true =>
          rw [if_pos rfl, List.append_nil]
          exact head
      | false =>
          exact (sendBody_transmitted inMemory present _).behind

/-- The buffer of the serializer is what the sender sends, as far as it
gets. -/
theorem httpResponseSend_serialize {response : Response}
    (built : response.Built) (inMemory : response.bodyKind ≠ .file)
    (present : 0 < response.bodyLength → response.body ≠ none)
    (omitBody : Bool) (transfer : Transfer) {sender serializer : Process}
    (sends : sender.allocs = []) (serializes : serializer.allocs = []) :
    let sending := (httpResponseSend response omitBody sender transfer).1
    ∃ buffer,
      (httpResponseSerialize response omitBody serializer).1 = some buffer ∧
      (sending.success = true → sending.sent = buffer) ∧
      (sending.success = false → sending.sent <+: buffer) := by
  intro sending
  have fits := (Response.InRange.of_built built).fits
  have transmitted := httpResponseSend_transmitted fits inMemory present sends
    omitBody transfer
  exact ⟨_, httpResponseSerialize_granted fits inMemory serializes omitBody,
    transmitted.whole, fun _ => transmitted.front⟩

/-- The connection breaks after a part of the status line. -/
theorem httpResponseSend_serialize_broken :
    let response :=
      (httpResponseBuildText httpResponseInit 404 (some (ascii "gone"))
        {}).1.2
    let sending := (httpResponseSend response false {}
      { sends := [.interrupted, .accepted 4, .failed] }).1
    sending.sent = ascii "HTTP" ∧
      ∃ buffer, (httpResponseSerialize response false {}).1 = some buffer ∧
        (sending.success = true → sending.sent = buffer) ∧
        (sending.success = false → sending.sent <+: buffer) := by
  intro response sending
  have built : response.Built :=
    .call (.buildText 404 (some (ascii "gone"))) {} .init
      ⟨by decide, by decide⟩
  exact ⟨by decide +kernel, httpResponseSend_serialize built (by decide)
    (by decide) false _ rfl rfl⟩

end CinderHTTP
