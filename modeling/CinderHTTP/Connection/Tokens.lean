import CinderHTTP.Connection.Announcement
import CinderHTTP.Http.Grammar

/-!
# The options of a connection

`http_header_value_has_token` looks for a token among the elements of a comma
list, whatever its case.  `http_request_wants_keep_alive` asks it about the
first Connection field only, while the persistence policy speaks of all of
them; both give the same answer exactly when the fields behind the first one
do not matter.
-/

namespace CinderHTTP

/-! ## Comma lists -/

/-- The elements of a comma list, without the blanks around them. -/
def listElements (value : Bytes) : List Bytes :=
  (value.splitOn comma).map trimOws

/-- A token is an element of a comma list, in any case. -/
def listsToken (token value : Bytes) : Bool :=
  (listElements value).any fun element => SameName element token

theorem tokenEqualCi_eq_decide (element token : Bytes) :
    tokenEqualCi element token = decide (SameName element token) := by
  unfold tokenEqualCi
  split_ifs with different
  · symm
    rw [decide_eq_false_iff_not]
    intro same
    apply different
    have lengths := congrArg List.length same
    rwa [List.length_map, List.length_map] at lengths
  · rw [not_not] at different
    induction element generalizing token with
    | nil =>
        cases token with
        | nil => rfl
        | cons first token => simp at different
    | cons first element induction =>
        cases token with
        | nil => simp at different
        | cons other token =>
            have rest := induction token (Nat.succ.inj different)
            simp only [List.zip_cons_cons, List.all_cons, rest, SameName,
              List.map_cons, List.cons.injEq, Bool.decide_and]
            rfl

theorem listElements_cons_blank {blank : Byte} (isBlank : isOws blank = true)
    (value : Bytes) : listElements (blank :: value) = listElements value := by
  have other : (blank == comma) = false := by
    rw [beq_eq_false_iff_ne]
    rintro rfl
    revert isBlank
    decide
  unfold listElements
  rw [List.splitOn_cons_eq_if_modifyHead, other, splitOn_cut comma value]
  simp [trimOws, skipOws, isBlank]

/-- Blanks in front do not change the elements. -/
theorem listElements_skipOws (value : Bytes) :
    listElements (skipOws value) = listElements value := by
  induction value with
  | nil => rfl
  | cons character value induction =>
      cases blank : isOws character with
      | false => rw [skipOws, List.dropWhile_cons_of_neg (by simp [blank])]
      | true =>
          rw [skipOws, List.dropWhile_cons_of_pos blank,
            listElements_cons_blank blank]
          exact induction

theorem listsToken_nil {token : Bytes} (nonempty : token ≠ []) :
    listsToken token [] = false := by
  simpa [listsToken, listElements, SameName, trimOws, trimOwsEnd,
    skipOws] using nonempty

/-- A token is the first element or one of the others. -/
theorem listsToken_cut {token : Bytes} (nonempty : token ≠ [])
    (value : Bytes) :
    listsToken token value =
      (decide (SameName (trimOws (value.takeWhile (· ≠ comma))) token) ||
        listsToken token ((value.dropWhile (· ≠ comma)).drop 1)) := by
  rw [listsToken, listElements, splitOn_cut]
  rcases value.dropWhile (· ≠ comma) with _ | ⟨_, rest⟩
  · rw [List.drop_nil, listsToken_nil nonempty]
    rfl
  · rfl

theorem skipOws_takeWhile_skipOws (text : Bytes) (keep : Byte → Bool) :
    skipOws ((skipOws text).takeWhile keep) =
      (skipOws text).takeWhile keep := by
  apply List.dropWhile_eq_self_iff.mpr
  intro nonempty blank
  have beginning := List.takeWhile_prefix (l := skipOws text) keep
  rw [beginning.getElem nonempty] at blank
  exact List.dropWhile_get_zero_not isOws text
    (Nat.lt_of_lt_of_le nonempty beginning.length_le) blank

/-- The scan finds the elements of the list. -/
theorem hasTokenFrom_eq {token : Bytes} (nonempty : token ≠ [])
    (cursor : Bytes) :
    hasTokenFrom cursor token = listsToken token cursor := by
  have skipped : ∀ text, listsToken token text =
      listsToken token (skipOws text) := fun text => by
    rw [listsToken, listsToken, listElements_skipOws]
  fun_induction hasTokenFrom cursor token with
  | case1 cursor blank =>
      rw [skipped, blank, listsToken_nil nonempty]
  | case2 cursor visible element found =>
      rw [skipped, listsToken_cut nonempty, trimOws,
        skipOws_takeWhile_skipOws, ← tokenEqualCi_eq_decide, found,
        Bool.true_or]
  | case3 cursor visible element rest missed induction =>
      rw [skipped, listsToken_cut nonempty, trimOws,
        skipOws_takeWhile_skipOws, ← tokenEqualCi_eq_decide,
        Bool.eq_false_iff.mpr missed, Bool.false_or]
      exact induction

theorem httpHeaderValueHasToken_eq {token : Bytes} (nonempty : token ≠ [])
    (value : Option Bytes) :
    httpHeaderValueHasToken value token = value.any (listsToken token) := by
  cases value with
  | none => rfl
  | some text =>
      rw [httpHeaderValueHasToken, if_neg nonempty, hasTokenFrom_eq nonempty]
      rfl

/-! ## The policy -/

/-- The persistence policy: a close in any Connection field ends the
connection; otherwise HTTP/1.1 persists, and HTTP/1.0 persists with a
keep-alive in some field. -/
def policyKeepsAlive (request : Request) : Bool :=
  let values := connectionValues request.headers
  !values.any (listsToken (ascii "close")) &&
    (request.version = some (ascii "HTTP/1.1") ||
      (request.version = some (ascii "HTTP/1.0") &&
        values.any (listsToken (ascii "keep-alive"))))

/-- The fields behind the first one do not matter.  They do not when the
first one says close.  When it settles a persistent connection, by the version
or by keep-alive, none of the others may say close.  Otherwise, when one of
the others says keep-alive, one of them says close. -/
def FirstFieldDecides (request : Request) : Prop :=
  match connectionValues request.headers with
  | [] => True
  | first :: others =>
      listsToken (ascii "close") first = true ∨
        if request.version = some (ascii "HTTP/1.1") ∨
            listsToken (ascii "keep-alive") first = true then
          ∀ value ∈ others, listsToken (ascii "close") value = false
        else
          (∃ value ∈ others, listsToken (ascii "keep-alive") value = true) →
            ∃ value ∈ others, listsToken (ascii "close") value = true

theorem httpRequestGetHeader_connection (request : Request) :
    httpRequestGetHeader request (ascii "Connection") =
      (connectionValues request.headers).head? := by
  rw [httpRequestGetHeader, connectionValues, List.head?_map,
    List.head?_filter]

/-- The answer of the function and the one of the policy, from what the
first field and the others contain. -/
theorem firstField_answer_iff (persistent : Bool)
    (firstClose firstKeep otherClose otherKeep : Bool) :
    (if firstClose then false
      else if persistent then true else firstKeep) =
        (!(firstClose || otherClose) &&
          (persistent || (!persistent && (firstKeep || otherKeep)))) ↔
      firstClose = true ∨
        if persistent = true ∨ firstKeep = true then otherClose = false
        else otherKeep = true → otherClose = true := by
  revert persistent firstClose firstKeep otherClose otherKeep
  decide

/-- On a request of a known version the function follows the policy exactly
when the first Connection field decides. -/
theorem httpRequestWantsKeepAlive_policy_iff {request : Request}
    {version : Bytes} (versioned : request.version = some version)
    (known : version ∈ [ascii "HTTP/1.0", ascii "HTTP/1.1"]) :
    httpRequestWantsKeepAlive request = policyKeepsAlive request ↔
      FirstFieldDecides request := by
  have close : ascii "close" ≠ [] := by decide
  have keep : ascii "keep-alive" ≠ [] := by decide
  have old : version = ascii "HTTP/1.0" ↔ ¬version = ascii "HTTP/1.1" := by
    rcases List.mem_cons.mp known with rfl | newer
    · decide
    · rw [List.mem_singleton.mp newer]
      decide
  unfold httpRequestWantsKeepAlive policyKeepsAlive FirstFieldDecides
  simp only [versioned, httpRequestGetHeader_connection,
    httpHeaderValueHasToken_eq close, httpHeaderValueHasToken_eq keep,
    Option.some.injEq, old]
  rcases connectionValues request.headers with _ | ⟨first, others⟩
  · by_cases newer : version = ascii "HTTP/1.1" <;> simp [newer]
  · have all : (∀ value ∈ others,
        listsToken (ascii "close") value = false) ↔
          others.any (listsToken (ascii "close")) = false := by
      simp
    simp only [List.head?_cons, Option.any_some, List.any_cons, all,
      ← List.any_eq_true]
    by_cases newer : version = ascii "HTTP/1.1"
    · have answer := firstField_answer_iff true
        (listsToken (ascii "close") first)
        (listsToken (ascii "keep-alive") first)
        (others.any (listsToken (ascii "close")))
        (others.any (listsToken (ascii "keep-alive")))
      simpa [newer] using answer
    · have answer := firstField_answer_iff false
        (listsToken (ascii "close") first)
        (listsToken (ascii "keep-alive") first)
        (others.any (listsToken (ascii "close")))
        (others.any (listsToken (ascii "keep-alive")))
      simpa [newer] using answer

/-- For every accepted message the decision follows the policy exactly when
the first Connection field decides. -/
theorem wantsKeepAlive_policy_iff (data : Bytes) (allocs : Allocs)
    (accepted : (httpParseRequest data allocs).result = .ok ()) :
    httpRequestWantsKeepAlive (httpParseRequest data allocs).request =
        policyKeepsAlive (httpParseRequest data allocs).request ↔
      FirstFieldDecides (httpParseRequest data allocs).request := by
  obtain ⟨parts, valid, _, request⟩ := httpParseRequest_parsed
    ((ParseOutcome.result_eq_ok_iff _).mp accepted)
  rw [request]
  exact httpRequestWantsKeepAlive_policy_iff rfl valid.version

/-- Both options in one field. -/
theorem wantsKeepAlive_policy_iff_joined :
    (httpParseRequest (ascii
        "GET / HTTP/1.1\r\nConnection: keep-alive, Close\r\n\r\n")
        []).result = .ok () ∧
      (httpRequestWantsKeepAlive (httpParseRequest (ascii
          "GET / HTTP/1.1\r\nConnection: keep-alive, Close\r\n\r\n")
          []).request =
        policyKeepsAlive (httpParseRequest (ascii
          "GET / HTTP/1.1\r\nConnection: keep-alive, Close\r\n\r\n")
          []).request ↔
        FirstFieldDecides (httpParseRequest (ascii
          "GET / HTTP/1.1\r\nConnection: keep-alive, Close\r\n\r\n")
          []).request) :=
  ⟨by decide +kernel, wantsKeepAlive_policy_iff _ _ (by decide +kernel)⟩

/-- The same options in two fields. -/
def repeatedConnection : Bytes :=
  ascii "GET / HTTP/1.1\r\nConnection: keep-alive\r\n" ++
    ascii "Connection: close\r\n\r\n"

/-- The second field says close, and the connection is kept. -/
theorem repeatedConnection_persists :
    (httpParseRequest repeatedConnection []).result = .ok () ∧
      (∃ value ∈ connectionValues
          (httpParseRequest repeatedConnection []).request.headers,
        listsToken (ascii "close") value = true) ∧
      httpRequestWantsKeepAlive
        (httpParseRequest repeatedConnection []).request = true := by
  decide +kernel

end CinderHTTP
