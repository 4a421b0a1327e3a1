import CinderHTTP.Base.Loop
import CinderHTTP.Http.Grammar
import CinderHTTP.Response.Build
import Mathlib.Data.List.Perm.Basic

/-!
# Removing and replacing headers

`http_response_remove_header` moves the last entry of the array into the place
of a removed one and looks at that place again.  On the array itself, with its
counter and with the entries whose strings were freed, the loop is left within
one turn for each header and one more.  It removes all headers of the name, it
counts them, and it keeps every other header.  So a header that is set
replaces all others of its name.
-/

namespace CinderHTTP

/-! ## The loop -/

theorem exists_last {α : Type*} {items : List α} {index : Nat}
    (within : index < items.length) :
    ∃ front last, items = front ++ [last] := by
  have nonempty : items ≠ [] := List.ne_nil_of_length_pos (by omega)
  exact ⟨_, _, (List.dropLast_append_getLast nonempty).symm⟩

/-- Moving the last item into a gap is the removal of the item there. -/
theorem dropLast_set_last_perm {α : Type*} {items : List α} {index : Nat}
    (within : index < items.length) :
    ((items.set index
      (items.get ⟨items.length - 1, by omega⟩)).dropLast).Perm
        (items.eraseIdx index) := by
  obtain ⟨front, last, shape⟩ := exists_last within
  have final : items.get ⟨items.length - 1, by omega⟩ = last := by
    simp [shape]
  rw [final, shape]
  by_cases inside : index < front.length
  · rw [List.set_append_left _ _ inside, List.dropLast_concat,
      List.eraseIdx_append_of_lt_length inside]
    apply (List.set_perm_cons_eraseIdx inside last).trans
    exact (List.perm_append_singleton last _).symm
  · have atEnd : index = front.length := by
      rw [shape, List.length_append, List.length_singleton] at within
      omega
    subst atEnd
    simp [List.eraseIdx_append_of_length_le]

theorem take_dropLast_set {α : Type*} {items : List α} {index : Nat}
    (within : index < items.length) (item : α) :
    (items.set index item).dropLast.take index = items.take index := by
  rw [List.dropLast_eq_take, List.take_take, List.length_set,
    Nat.min_eq_left (by omega), List.take_set_of_le (Nat.le_refl index)]

/-- The loop keeps exactly the headers with other names and counts those it
removed. -/
theorem removeHeaderLoop_spec {name : Bytes} {index : Nat}
    {headers : List Header} {removed : Nat}
    (checked : ∀ field ∈ headers.take index,
      headerNameEqual field.name name = false) :
    (removeHeaderLoop name index headers removed).2.Perm
        (headers.filter fun field => !headerNameEqual field.name name) ∧
      (removeHeaderLoop name index headers removed).1 =
        removed + headers.countP fun field =>
          headerNameEqual field.name name := by
  fun_induction removeHeaderLoop name index headers removed with
  | case1 index headers removed within found last induction =>
      have perm := dropLast_set_last_perm within
      have whole : (headers.get ⟨index, within⟩ ::
          headers.eraseIdx index).Perm headers :=
        List.getElem_cons_eraseIdx_perm within
      have front : (headers.set index last).dropLast.take index =
          headers.take index := take_dropLast_set within last
      obtain ⟨kept, counted⟩ := induction (by rwa [front])
      constructor
      · apply kept.trans
        apply (perm.filter _).trans
        have dropped := whole.filter fun field =>
          !headerNameEqual field.name name
        rw [List.filter_cons_of_neg (by simpa using found)] at dropped
        exact dropped
      · rw [counted, perm.countP_eq, ← whole.countP_eq, List.countP_cons,
          if_pos found]
        omega
  | case2 index headers removed within different induction =>
      apply induction
      intro field member
      rw [List.take_succ_eq_append_getElem within, List.mem_append,
        List.mem_singleton] at member
      rcases member with before | rfl
      · exact checked field before
      · simpa using different
  | case3 index headers removed beyond =>
      rw [List.take_of_length_le (Nat.le_of_not_lt beyond)] at checked
      have none : ∀ field ∈ headers,
          ¬headerNameEqual field.name name = true := by
        intro field member
        rw [checked field member]
        exact Bool.false_ne_true
      rw [List.countP_eq_zero.mpr none, Nat.add_zero,
        List.filter_eq_self.mpr (by simpa using none)]
      exact ⟨.refl _, rfl⟩

theorem httpResponseRemoveHeader_perm (response : Response) (name : Bytes) :
    (httpResponseRemoveHeader response name).2.headers.Perm
      (response.headers.filter fun field =>
        !headerNameEqual field.name name) :=
  (removeHeaderLoop_spec (by simp)).1

theorem mem_httpResponseRemoveHeader {response : Response} {name : Bytes}
    {field : Header} :
    field ∈ (httpResponseRemoveHeader response name).2.headers ↔
      field ∈ response.headers ∧
        headerNameEqual field.name name = false := by
  rw [(httpResponseRemoveHeader_perm response name).mem_iff,
    List.mem_filter, Bool.not_eq_true']

theorem httpResponseRemoveHeader_filter (response : Response)
    (name : Bytes) :
    ((httpResponseRemoveHeader response name).2.headers.filter fun field =>
      headerNameEqual field.name name) = [] := by
  rw [List.filter_eq_nil_iff]
  intro field member
  rw [(mem_httpResponseRemoveHeader.mp member).2]
  exact Bool.false_ne_true

/-! ## The array -/

/-- The loop at work: the position, the entries of the array and the counter
of the response, and the number of removed headers.  An entry whose strings
were freed is nothing. -/
structure Removal where
  index : Nat
  slots : List (Option Header)
  count : Nat
  removed : Nat
  deriving DecidableEq, Repr

/-- Freeing an entry and moving the last one into its place; nothing when
there is no last one. -/
def releaseSlot (slots : List (Option Header)) (index last : Nat) :
    Option (List (Option Header)) :=
  let freed := slots.set index none
  if index ≠ last then
    (getElem? freed last).map fun entry => freed.set index entry
  else some freed

/-- One turn of the loop of `http_response_remove_header`; reading an entry
that is not there or whose strings were freed leaves it without a result. -/
def removeTurn (name : Bytes) (state : Removal) :
    LoopStep Removal (Option Removal) :=
  if state.index < state.count then
    match getElem? state.slots state.index with
    | some (some header) =>
        if headerNameEqual header.name name then
          match releaseSlot state.slots state.index (state.count - 1) with
          | some slots =>
              .next { state with
                slots := slots
                count := state.count - 1
                removed := state.removed + 1 }
          | none => .done none
        else .next { state with index := state.index + 1 }
    | _ => .done none
  else .done (some state)

/-- The entries up to the counter are the headers. -/
def Removal.Stores (state : Removal) (headers : List Header) : Prop :=
  state.count = headers.length ∧
    ∃ beyond, state.slots = headers.map some ++ beyond

theorem releaseSlot_inside {front : List Header} {index : Nat}
    (inside : index < front.length) (last : Header)
    (beyond : List (Option Header)) :
    releaseSlot ((front ++ [last]).map some ++ beyond) index front.length =
      some ((front.set index last).map some ++ (some last :: beyond)) := by
  have shape : (front ++ [last]).map some ++ beyond =
      front.map some ++ (some last :: beyond) := by simp
  have freed : (front.map some ++ (some last :: beyond)).set index none =
      (front.map some).set index none ++ (some last :: beyond) :=
    List.set_append_left _ _ (by simpa using inside)
  have final : getElem? ((front.map some).set index none ++
      (some last :: beyond)) front.length = some (some last) := by
    rw [List.getElem?_append_right (by simp)]
    simp
  rw [releaseSlot, shape]
  simp only [freed, final, if_pos (Nat.ne_of_lt inside), Option.map_some]
  rw [List.set_append_left _ _ (by simpa using inside), List.set_set,
    List.map_set]

theorem releaseSlot_last (front : List Header) (last : Header)
    (beyond : List (Option Header)) :
    releaseSlot ((front ++ [last]).map some ++ beyond) front.length
        front.length =
      some (front.map some ++ (none :: beyond)) := by
  have shape : (front ++ [last]).map some ++ beyond =
      front.map some ++ (some last :: beyond) := by simp
  rw [releaseSlot, shape]
  simp [List.set_append_right]

/-- A turn that removes a header, on the list. -/
theorem removeHeaderLoop_release {name : Bytes} {front : List Header}
    {last : Header} {index removed : Nat}
    (within : index < (front ++ [last]).length)
    (found : headerNameEqual ((front ++ [last]).get ⟨index, within⟩).name
      name = true) :
    removeHeaderLoop name index (front ++ [last]) removed =
      removeHeaderLoop name index
        (if index < front.length then front.set index last else front)
        (removed + 1) := by
  rw [removeHeaderLoop, dif_pos within, if_pos found]
  have final : (front ++ [last]).get
      ⟨(front ++ [last]).length - 1, by omega⟩ = last := by simp
  simp only [final]
  split_ifs with inside
  · rw [List.set_append_left _ _ inside, List.dropLast_concat]
  · have final : index = front.length := by
      rw [List.length_append, List.length_singleton] at within
      omega
    rw [List.set_append_right _ _ (Nat.le_of_not_lt inside), final,
      Nat.sub_self, List.set_cons_zero, List.dropLast_concat]

section

variable {name : Bytes} {outcome : Nat × List Header}

/-- The loop on the array, at a place from which the one on the list comes to
this outcome. -/
def Removal.Follows (name : Bytes) (outcome : Nat × List Header)
    (state : Removal) : Prop :=
  ∃ headers, state.Stores headers ∧
    removeHeaderLoop name state.index headers state.removed = outcome

/-- The loop on the array has come to this outcome. -/
def Removal.Ends (outcome : Nat × List Header) (result : Option Removal) :
    Prop :=
  ∃ final, result = some final ∧ final.Stores outcome.2 ∧
    final.removed = outcome.1

/-- Releasing an entry is the turn on the list that removes its header. -/
theorem Removal.Stores.release {state : Removal} {headers : List Header}
    (stores : state.Stores headers) (within : state.index < headers.length)
    (found : headerNameEqual (headers.get ⟨state.index, within⟩).name name =
      true)
    (loop : removeHeaderLoop name state.index headers state.removed =
      outcome) :
    ∃ slots,
      releaseSlot state.slots state.index (state.count - 1) = some slots ∧
        Removal.Follows name outcome { state with
          slots := slots
          count := state.count - 1
          removed := state.removed + 1 } := by
  obtain ⟨counted, beyond, slots⟩ := stores
  obtain ⟨front, last, rfl⟩ := exists_last within
  have before : state.count - 1 = front.length := by simp [counted]
  rw [removeHeaderLoop_release within found] at loop
  rw [slots, before]
  -- another entry moves into the place unless it is the last one itself
  by_cases inside : state.index < front.length
  · rw [if_pos inside] at loop
    refine ⟨_, releaseSlot_inside inside last beyond,
      front.set state.index last, ⟨?_, _, rfl⟩, loop⟩
    exact (List.length_set).symm
  · have final : state.index = front.length := by
      rw [List.length_append, List.length_singleton] at within
      omega
    rw [if_neg inside] at loop
    refine ⟨front.map some ++ (none :: beyond), ?_, front, ⟨rfl, _, rfl⟩,
      loop⟩
    rw [final]
    exact releaseSlot_last front last beyond

theorem removeTurn_step {state : Removal}
    (follows : state.Follows name outcome) :
    GoodTurn (Removal.Follows name outcome)
      (fun state => state.count - state.index) (Removal.Ends outcome) state
      (removeTurn name state) := by
  obtain ⟨headers, stores, loop⟩ := follows
  unfold removeTurn
  by_cases within : state.index < state.count
  · have inside : state.index < headers.length := stores.1 ▸ within
    have read : getElem? state.slots state.index =
        some (some (headers.get ⟨state.index, inside⟩)) := by
      obtain ⟨_, beyond, slots⟩ := stores
      rw [slots, List.getElem?_append_left (by simpa using inside)]
      simp [inside]
    simp only [if_pos within, read]
    by_cases found : headerNameEqual
        (headers.get ⟨state.index, inside⟩).name name = true
    · obtain ⟨slots, released, follows⟩ := stores.release inside found loop
      simp only [if_pos found, released]
      refine .next follows ?_
      simp only
      omega
    · rw [removeHeaderLoop, dif_pos inside, if_neg found] at loop
      rw [if_neg found]
      refine .next ⟨headers, stores, loop⟩ ?_
      simp only
      omega
  · rw [removeHeaderLoop, dif_neg (stores.1 ▸ within)] at loop
    rw [if_neg within]
    subst loop
    exact .done ⟨state, rfl, stores, rfl⟩

end

/-! ## Replacement -/

/-- A header replaces all others of its name, or, without memory, removes
them. -/
theorem httpResponseSetHeader_cases (response : Response)
    (name value : Bytes) (process : Process) :
    (httpResponseSetHeader response name value process).1 =
        (true, { response with
          headers := (httpResponseRemoveHeader response name).2.headers ++
            [{ name := name, value := value }] }) ∨
      (httpResponseSetHeader response name value process).1 =
        (false, (httpResponseRemoveHeader response name).2) :=
  httpResponseAddHeader_cases _ _ _ _

section

variable {response : Response} {name value : Bytes} {process : Process}

theorem httpResponseSetHeader_headers
    (success : (httpResponseSetHeader response name value process).1.1 =
      true) :
    (httpResponseSetHeader response name value process).1.2.headers =
      (httpResponseRemoveHeader response name).2.headers ++
        [{ name := name, value := value }] := by
  rcases httpResponseSetHeader_cases response name value process with
    added | refused
  · rw [added]
  · rw [refused] at success
    cases success

theorem httpResponseSetHeader_refused
    (failure : (httpResponseSetHeader response name value process).1.1 =
      false) :
    (httpResponseSetHeader response name value process).1.2 =
      (httpResponseRemoveHeader response name).2 := by
  rcases httpResponseSetHeader_cases response name value process with
    added | refused
  · rw [added] at failure
    cases failure
  · rw [refused]

theorem httpResponseSetHeader_filter
    (success : (httpResponseSetHeader response name value process).1.1 =
      true) :
    ((httpResponseSetHeader response name value
        process).1.2.headers.filter fun field =>
          headerNameEqual field.name name) =
      [{ name := name, value := value }] := by
  rw [httpResponseSetHeader_headers success, List.filter_append,
    httpResponseRemoveHeader_filter, List.nil_append, List.filter_singleton,
    headerNameEqual_self]
  rfl

theorem httpResponseSetHeader_filter_others
    (success : (httpResponseSetHeader response name value process).1.1 =
      true) :
    ((httpResponseSetHeader response name value
        process).1.2.headers.filter fun field =>
          !headerNameEqual field.name name) =
      (httpResponseRemoveHeader response name).2.headers := by
  have all : ((httpResponseRemoveHeader response
      name).2.headers.filter fun field =>
        !headerNameEqual field.name name) =
      (httpResponseRemoveHeader response name).2.headers := by
    rw [List.filter_eq_self]
    intro field member
    rw [(mem_httpResponseRemoveHeader.mp member).2]
    rfl
  rw [httpResponseSetHeader_headers success, List.filter_append, all,
    List.filter_cons_of_neg (by simp [headerNameEqual_self]),
    List.filter_nil, List.append_nil]

theorem httpResponseSetHeader_again {later : Process}
    (success : (httpResponseSetHeader response name value process).1.1 =
      true)
    (repeated : (httpResponseSetHeader
      (httpResponseSetHeader response name value process).1.2 name value
        later).1.1 = true) :
    (httpResponseSetHeader
      (httpResponseSetHeader response name value process).1.2 name value
        later).1.2.headers.Perm
      (httpResponseSetHeader response name value process).1.2.headers := by
  have kept := httpResponseRemoveHeader_perm
    (httpResponseSetHeader response name value process).1.2 name
  rw [httpResponseSetHeader_filter_others success] at kept
  have replaced := kept.append_right [{ name := name, value := value }]
  rwa [← httpResponseSetHeader_headers repeated,
    ← httpResponseSetHeader_headers success] at replaced

end

/-- The loop is left on every array that stores the headers, with the count
and the headers of the list.  The removed headers are those of the name, in
any case, and the others are kept.  A header that was set is the only one of
its name and the last of all; set again, it replaces itself, or, when the
memory does not suffice, it is removed. -/
theorem httpResponseRemoveHeader_exact (response : Response)
    (name : Bytes) :
    let result := httpResponseRemoveHeader response name
    (∀ beyond turns, response.headers.length < turns → ∃ final,
      runLoop (removeTurn name) turns
          { index := 0
            slots := response.headers.map some ++ beyond
            count := response.headers.length
            removed := 0 } = some (some final) ∧
        final.Stores result.2.headers ∧ final.removed = result.1) ∧
    result.1 = (response.headers.countP fun field =>
      SameName field.name name) ∧
    (∀ field ∈ result.2.headers, ¬SameName field.name name) ∧
    result.2.headers.Perm (response.headers.filter fun field =>
      ¬SameName field.name name) ∧
    ∀ value process,
      let set := (httpResponseSetHeader response name value process).1
      set.1 = true →
        (set.2.headers.filter fun field => SameName field.name name) =
            [{ name := name, value := value }] ∧
          set.2.headers.getLast? = some { name := name, value := value } ∧
          ∀ later,
            let again := (httpResponseSetHeader set.2 name value later).1
            (again.1 = true → again.2.headers.Perm set.2.headers) ∧
            (again.1 = false → again.2.headers.Perm
              (set.2.headers.filter fun field =>
                ¬SameName field.name name)) := by
  intro result
  obtain ⟨kept, counted⟩ := @removeHeaderLoop_spec name 0 response.headers 0
    (by simp)
  simp only [decide_not, ← headerNameEqual_eq_decide]
  refine ⟨?_, ?_, ?_, kept, ?_⟩
  · intro beyond turns enough
    have follows : Removal.Follows name
        (removeHeaderLoop name 0 response.headers 0)
        { index := 0
          slots := response.headers.map some ++ beyond
          count := response.headers.length
          removed := 0 } := ⟨response.headers, ⟨rfl, beyond, rfl⟩, rfl⟩
    obtain ⟨_, left, final, rfl, ends⟩ := runLoop_of_turns
      (fun _ => removeTurn_step) follows enough
    exact ⟨final, left, ends⟩
  · exact counted.trans (Nat.zero_add _)
  · intro field member same
    have different := (mem_httpResponseRemoveHeader.mp member).2
    rw [(headerNameEqual_iff _ _).mpr same] at different
    cases different
  · intro value process success
    refine ⟨httpResponseSetHeader_filter success, ?_, ?_⟩
    · rw [httpResponseSetHeader_headers success, List.getLast?_concat]
    · intro later
      refine ⟨httpResponseSetHeader_again success, ?_⟩
      intro failure
      rw [httpResponseSetHeader_refused failure]
      exact httpResponseRemoveHeader_perm _ name

/-- Neighbours and the last header have the name. -/
theorem httpResponseRemoveHeader_exact_adjacent :
    let other : Header := { name := ascii "Age", value := ascii "3" }
    let response := { httpResponseInit with
      headers := [{ name := ascii "Vary", value := ascii "1" },
        { name := ascii "vary", value := ascii "2" }, other,
        { name := ascii "VARY", value := ascii "4" }] }
    let process : Process := {}
    let result := httpResponseRemoveHeader response (ascii "Vary")
    let set := (httpResponseSetHeader response (ascii "Vary") (ascii "5")
      process).1
    result.1 = 3 ∧ result.2.headers = [other] ∧
      (∃ final, runLoop (removeTurn (ascii "Vary")) 5
          { index := 0
            slots := response.headers.map some
            count := 4
            removed := 0 } = some (some final) ∧
        final.Stores [other] ∧ final.removed = 3) ∧
      set.1 = true ∧ set.2.headers.getLast? =
        some { name := ascii "Vary", value := ascii "5" } := by
  intro other response process result set
  obtain ⟨loop, counted, _, kept, replaced⟩ :=
    httpResponseRemoveHeader_exact response (ascii "Vary")
  have three : result.1 = 3 := counted
  have rest : result.2.headers = [other] := List.perm_singleton.mp kept
  obtain ⟨final, left, stored, removed⟩ := loop [] 5 (by decide)
  have success : set.1 = true := by
    simp only [set, httpResponseSetHeader]
    rw [httpResponseAddHeader_granted _ _ _ rfl]
  refine ⟨three, rest, ⟨final, left, ?_, removed.trans three⟩, success,
    (replaced (ascii "5") process success).2.1⟩
  rw [← rest]
  exact stored

end CinderHTTP
