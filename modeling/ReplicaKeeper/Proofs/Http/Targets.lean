import Mathlib.Data.List.TakeWhile
import ReplicaKeeper.Http.Script

/-!
# What a request for an object reads

The path to an object is written from its namespace and its name as they are.  Such a request reads
the object if and only if the name is a segment of a path for itself: it has no slash, no mark of a
query or a fragment and no escape, and it is not a dot segment (`Http.readsObject_iff`).  What comes
behind the mark of a fragment is not sent, so names that differ only there share their request
(`Http.eq_getRequest?_iff`).  Put together, `Http.store_reads_by_name` says what becomes of reading
a workload or a deployment.
-/

set_option autoImplicit false

namespace ReplicaKeeper

/-! ## Fragments -/

namespace Uri

/-- What stands in front of a fragment. -/
def upToFragment (text : String) : String := String.ofList (text.toList.takeWhile (· ≠ '#'))

theorem upToFragment_append {front : String} (h : '#' ∉ front.toList) (back : String) :
    upToFragment (front ++ back) = front ++ upToFragment back := by
  apply String.toList_injective
  unfold upToFragment
  rw [String.toList_append, String.toList_append, String.toList_ofList, String.toList_ofList,
    List.takeWhile_append_of_pos]
  intro c hc
  simpa using fun heq : c = '#' => h (heq ▸ hc)

theorem mem_of_mem_upToFragment {c : Char} {text : String} (h : c ∈ (upToFragment text).toList) :
    c ∈ text.toList := by
  unfold upToFragment at h
  rw [String.toList_ofList] at h
  exact (List.takeWhile_prefix _).subset h

theorem upToFragment_of_notMem {text : String} (h : '#' ∉ text.toList) :
    upToFragment text = text := by
  apply String.toList_injective
  unfold upToFragment
  rw [String.toList_ofList, List.takeWhile_eq_self_iff]
  intro c hc
  simpa using fun heq : c = '#' => h (heq ▸ hc)

theorem notMem_upToFragment (text : String) : '#' ∉ (upToFragment text).toList := by
  unfold upToFragment
  rw [String.toList_ofList]
  intro hmem
  simpa using List.mem_takeWhile_imp hmem

/-! ## Targets that are read -/

theorem text_of_path (path : String) : text ⟨path, none⟩ = path := rfl

theorem toList_text_of_query (path query : String) :
    (text ⟨path, some query⟩).toList = path.toList ++ '?' :: query.toList := by
  simp [text]

/-- The target has the text up to a fragment, and its path ends at the first question mark. -/
theorem of_parse? {target : String} {uri : Uri} (h : parse? target = some uri) :
    '?' ∉ uri.path.toList ∧ uri.text = upToFragment target := by
  unfold parse? at h
  split at h
  · cases h
  · dsimp only at h
    split at h
    · have hsplit := List.takeWhile_append_dropWhile
        (p := fun c => !(decide (c = '?') || decide (c = '#'))) (l := target.toList)
      have hpath : ∀ c ∈ target.toList.takeWhile fun c => !(decide (c = '?') || decide (c = '#')),
          c ≠ '?' ∧ c ≠ '#' := by
        intro c hc
        simpa using List.mem_takeWhile_imp hc
      have hrest := List.head?_dropWhile_not
        (fun c => !(decide (c = '?') || decide (c = '#'))) target.toList
      generalize target.toList.takeWhile (fun c => !(decide (c = '?') || decide (c = '#'))) = path
        at h hsplit hpath
      generalize target.toList.dropWhile (fun c => !(decide (c = '?') || decide (c = '#'))) = rest
        at h hsplit hrest
      have hfragment : upToFragment target = String.ofList (path ++ rest.takeWhile (· ≠ '#')) := by
        unfold upToFragment
        rw [← hsplit, List.takeWhile_append_of_pos fun c hc => by simpa using (hpath c hc).2]
      have hmark : '?' ∉ (String.ofList path).toList := by
        rw [String.toList_ofList]
        exact fun hmem => (hpath '?' hmem).1 rfl
      rw [hfragment]
      unfold readQuery at h
      split at h
      · next rest =>
        dsimp only at h
        split at h
        · obtain rfl := Option.some.inj h
          refine ⟨hmark, String.toList_injective ?_⟩
          simp [toList_text_of_query]
        · cases h
      · next hquery =>
        obtain rfl := Option.some.inj h
        refine ⟨hmark, String.toList_injective ?_⟩
        -- What follows the path is nothing or a fragment.
        rw [text_of_path]
        cases rest with
        | nil => simp
        | cons c rest =>
            have hc : ¬ c = '?' → c = '#' := by simpa using hrest
            obtain rfl := hc fun heq => hquery rest (heq ▸ rfl)
            simp
    · cases h

/-- Lists with a mark at which they can be split have the same parts. -/
theorem append_cons_inj {α : Type} {a : α} {front front' back back' : List α} (h : a ∉ front)
    (h' : a ∉ front') (heq : front ++ a :: back = front' ++ a :: back') :
    front = front' ∧ back = back' := by
  induction front generalizing front' with
  | nil =>
      cases front' with
      | nil => exact ⟨rfl, (List.cons.inj heq).2⟩
      | cons b front' => exact absurd ((List.cons.inj heq).1 ▸ List.mem_cons_self) h'
  | cons b front ih =>
      cases front' with
      | nil => exact absurd ((List.cons.inj heq).1 ▸ List.mem_cons_self) h
      | cons b' front' =>
          obtain ⟨rfl, hrest⟩ := List.cons.inj heq
          obtain ⟨rfl, hback⟩ := ih (fun hmem => h (List.mem_cons_of_mem _ hmem))
            (fun hmem => h' (List.mem_cons_of_mem _ hmem)) hrest
          exact ⟨rfl, hback⟩

/-- A target is known from its text. -/
theorem ext_of_text {left right : Uri} (hleft : '?' ∉ left.path.toList)
    (hright : '?' ∉ right.path.toList) (h : left.text = right.text) : left = right := by
  obtain ⟨path, query⟩ := left
  obtain ⟨path', query'⟩ := right
  have hlist := congrArg String.toList h
  have hmark (front : List Char) (back : String) : '?' ∈ front ++ '?' :: back.toList :=
    List.mem_append_right _ List.mem_cons_self
  cases query with
  | none =>
      cases query' with
      | none => exact congrArg (Uri.mk · none) h
      | some query' =>
          rw [text_of_path, toList_text_of_query] at hlist
          exact absurd (hlist ▸ hmark _ _) hleft
  | some query =>
      cases query' with
      | none =>
          rw [text_of_path, toList_text_of_query] at hlist
          exact absurd (hlist ▸ hmark _ _) hright
      | some query' =>
          rw [toList_text_of_query, toList_text_of_query] at hlist
          obtain ⟨hpath, hquery⟩ := append_cons_inj hleft hright hlist
          obtain rfl : path = path' := String.toList_injective hpath
          obtain rfl : query = query' := String.toList_injective hquery
          rfl

end Uri

/-! ## Segments of paths -/

/-- The value of a hexadecimal digit. -/
def hexValue? (c : Char) : Option Nat :=
  if c.isDigit then some (c.toNat - '0'.toNat)
  else if 'a' ≤ c ∧ c ≤ 'f' then some (c.toNat - 'a'.toNat + 10)
  else if 'A' ≤ c ∧ c ≤ 'F' then some (c.toNat - 'A'.toNat + 10)
  else none

/-- The byte that an escape stands for, as in `%2F`. -/
def escapedByte? (first second : Char) : Option UInt8 := do
  return .ofNat (16 * (← hexValue? first) + (← hexValue? second))

/-- The bytes that a segment of a path stands for. -/
def segmentBytes : List Char → List UInt8
  | '%' :: first :: second :: rest =>
      match escapedByte? first second with
      | some byte => byte :: segmentBytes rest
      | none => String.utf8EncodeChar '%' ++ segmentBytes (first :: second :: rest)
  | c :: rest => String.utf8EncodeChar c ++ segmentBytes rest
  | [] => []

/-- Whether a text has an escape. -/
def hasEscape : List Char → Bool
  | '%' :: first :: second :: rest =>
      (escapedByte? first second).isSome || hasEscape (first :: second :: rest)
  | _ :: rest => hasEscape rest
  | [] => false

/-- The bytes of a name. -/
def nameBytes (name : List Char) : List UInt8 := name.flatMap String.utf8EncodeChar

theorem segmentBytes_of_not_hasEscape (cs : List Char) (h : hasEscape cs = false) :
    segmentBytes cs = nameBytes cs := by
  fun_induction segmentBytes cs with
  | case1 first second rest byte hbyte ih => simp [hasEscape, hbyte] at h
  | case2 first second rest hnone ih =>
      rw [hasEscape, Bool.or_eq_false_iff] at h
      rw [ih h.2]
      rfl
  | case3 c rest hother ih =>
      rw [hasEscape] at h
      · rw [ih h]
        rfl
      · exact hother
  | case4 => rfl

theorem nameBytes_cons (c : Char) (cs : List Char) :
    nameBytes (c :: cs) = String.utf8EncodeChar c ++ nameBytes cs := rfl

theorem length_lt_nameBytes_cons (c : Char) (cs : List Char) :
    (nameBytes cs).length < (nameBytes (c :: cs)).length := by
  rw [nameBytes_cons, List.length_append, String.length_utf8EncodeChar]
  have := c.utf8Size_pos
  omega

/-- An escape is longer than what it stands for. -/
theorem length_segmentBytes (cs : List Char) :
    (segmentBytes cs).length ≤ (nameBytes cs).length ∧
      (hasEscape cs = true → (segmentBytes cs).length < (nameBytes cs).length) := by
  fun_induction segmentBytes cs with
  | case1 first second rest byte hbyte ih =>
      have hpercent := length_lt_nameBytes_cons '%' (first :: second :: rest)
      have hfirst := length_lt_nameBytes_cons first (second :: rest)
      have hsecond := length_lt_nameBytes_cons second rest
      rw [List.length_cons]
      omega
  | case2 first second rest hnone ih =>
      rw [nameBytes_cons, List.length_append, List.length_append, hasEscape, hnone,
        Option.isSome_none, Bool.false_or]
      exact ⟨by omega, fun h => by have := ih.2 h; omega⟩
  | case3 c rest hother ih =>
      rw [nameBytes_cons, List.length_append, List.length_append, hasEscape]
      · exact ⟨by omega, fun h => by have := ih.2 h; omega⟩
      · exact hother
  | case4 => exact ⟨Nat.le_refl 0, fun h => by cases h⟩

/-- Without an escape, and only then, a text stands for itself. -/
theorem segmentBytes_eq_iff (cs : List Char) :
    segmentBytes cs = nameBytes cs ↔ hasEscape cs = false := by
  refine ⟨fun heq => ?_, segmentBytes_of_not_hasEscape cs⟩
  rw [← Bool.not_eq_true]
  intro hescape
  have hlt := (length_segmentBytes cs).2 hescape
  rw [heq] at hlt
  exact Nat.lt_irrefl _ hlt

/-- What stands for a text is at least as long. -/
theorem eq_nil_of_segmentBytes {front back : List Char}
    (h : segmentBytes front = nameBytes (front ++ back)) : back = [] := by
  cases back with
  | nil => rfl
  | cons c back =>
      have hlength := (length_segmentBytes front).1
      have hback := length_lt_nameBytes_cons c back
      rw [h, nameBytes, List.flatMap_append, List.length_append] at hlength
      unfold nameBytes at hlength hback
      omega

/-- A text that is represented by what comes before a fragment has no fragment. -/
theorem Uri.upToFragment_eq_self {text : String}
    (h : segmentBytes (Uri.upToFragment text).toList = nameBytes text.toList) :
    Uri.upToFragment text = text := by
  have hsplit := List.takeWhile_append_dropWhile (p := (· ≠ '#')) (l := text.toList)
  have hfront : (Uri.upToFragment text).toList = text.toList.takeWhile (· ≠ '#') :=
    String.toList_ofList
  rw [hfront] at h
  have hback := eq_nil_of_segmentBytes (h.trans (congrArg nameBytes hsplit.symm))
  rw [hback, List.append_nil] at hsplit
  exact String.toList_injective (hfront.trans hsplit)

/-! ## Namespaces -/

/-- A name that a namespace can have. -/
structure IsNamespaceName (ns : String) : Prop where
  nonempty : ns ≠ ""
  short : ns.length ≤ 63
  chars : ∀ c ∈ ns.toList, ('a' ≤ c ∧ c ≤ 'z') ∨ ('0' ≤ c ∧ c ≤ '9') ∨ c = '-'
  first : ns.toList.head? ≠ some '-'
  last : ns.toList.getLast? ≠ some '-'

theorem IsNamespaceName.notMem {ns : String} (h : IsNamespaceName ns) {c : Char}
    (hc : c = '/' ∨ c = '?' ∨ c = '#') : c ∉ ns.toList := by
  intro hmem
  have hchar := h.chars c hmem
  rcases hc with rfl | rfl | rfl <;> revert hchar <;> decide

namespace Http

/-! ## What is read -/

/-- A segment of a path leads to the object with a name and to nothing else.  The segments `.` and
`..` lead to the collection and out of it. -/
structure Identifies (segment name : String) : Prop where
  nonempty : segment ≠ ""
  single : '/' ∉ segment.toList
  noDots : segment ≠ "." ∧ segment ≠ ".."
  bytes : segmentBytes segment.toList = nameBytes name.toList

/-- The request reads the object under the key: its path is that of the collection in the namespace,
followed by one segment for the name, and it has no query. -/
structure ReadsObject (collection : Collection) (key : Key) (request : HttpRequest) : Prop where
  method : request.method = .get
  path : ∃ segment, request.uri.path = collection.path key.ns ++ "/" ++ segment ∧
    Identifies segment key.name
  query : request.uri.query = none

/-- A name that is a segment for itself. -/
structure IsSegment (name : String) : Prop where
  nonempty : name ≠ ""
  chars : ∀ c ∈ name.toList, c ≠ '/' ∧ c ≠ '?' ∧ c ≠ '#'
  noEscape : hasEscape name.toList = false
  noDots : name ≠ "." ∧ name ≠ ".."

/-- What comes before the name of an object in the path to it. -/
def front (collection : Collection) (ns : String) : String := collection.path ns ++ "/"

theorem notMem_front (collection : Collection) {ns : String} (h : IsNamespaceName ns) {c : Char}
    (hc : c = '?' ∨ c = '#') : c ∉ (front collection ns).toList := by
  have hns := h.notMem (.inr hc)
  have hgroup : c ∉ collection.groupVersion.toList := by
    cases collection <;> rcases hc with rfl | rfl <;> decide
  have hplural : c ∉ collection.plural.toList := by
    cases collection <;> rcases hc with rfl | rfl <;> decide
  have hfixed : c ∉ "/apis/".toList ∧ c ∉ "/namespaces/".toList ∧ c ∉ "/".toList := by
    rcases hc with rfl | rfl <;> decide
  unfold front Collection.path
  simp only [String.toList_append, List.mem_append, not_or]
  exact ⟨⟨⟨⟨⟨⟨hfixed.1, hgroup⟩, hfixed.2.1⟩, hns⟩, hfixed.2.2⟩, hplural⟩, hfixed.2.2⟩

/-- A namespace ends at the next slash: the path to an object tells its namespace and its name. -/
theorem front_append_inj (collection : Collection) {ns ns' name name' : String}
    (h : IsNamespaceName ns) (h' : IsNamespaceName ns')
    (heq : front collection ns ++ name = front collection ns' ++ name') :
    ns = ns' ∧ name = name' := by
  have hlist := congrArg String.toList heq
  unfold front Collection.path at hlist
  simp only [String.toList_append, List.append_assoc] at hlist
  have hrest := List.append_cancel_left (List.append_cancel_left (List.append_cancel_left hlist))
  obtain ⟨hns, hback⟩ := Uri.append_cons_inj (h.notMem (.inl rfl)) (h'.notMem (.inl rfl)) hrest
  have hname := List.append_cancel_left (List.append_cancel_left hback)
  exact ⟨String.toList_injective hns, String.toList_injective (List.append_cancel_left hname)⟩

/-! ## What is sent -/

section Sent

variable {collection : Collection} {key : Key} {request : HttpRequest}

theorem getRequest?_of_parse? {uri : Uri}
    (h : Uri.parse? (collection.objectPath key) = some uri) :
    getRequest? collection key = some { method := .get, uri } :=
  congrArg (Option.bind · _) h

theorem parse?_of_getRequest?_eq_none (h : getRequest? collection key = none) :
    Uri.parse? (collection.objectPath key) = none := by
  cases huri : Uri.parse? (collection.objectPath key) with
  | none =>
      rfl
  | some uri =>
      cases h.symm.trans (getRequest?_of_parse? huri)

theorem getRequest?_eq_some (h : getRequest? collection key = some request) :
    ∃ uri, Uri.parse? (collection.objectPath key) = some uri ∧
      request = { method := .get, uri } := by
  obtain ⟨uri, huri, hrequest⟩ := Option.bind_eq_some_iff.1 h
  exact ⟨uri, huri, (Option.some.inj hrequest).symm⟩

/-- The path of the object goes into the target as it is, up to a fragment. -/
theorem text_getRequest? (hns : IsNamespaceName key.ns)
    (h : getRequest? collection key = some request) :
    '?' ∉ request.uri.path.toList ∧
      request.uri.text = front collection key.ns ++ Uri.upToFragment key.name := by
  obtain ⟨uri, huri, rfl⟩ := getRequest?_eq_some h
  obtain ⟨hpath, htext⟩ := Uri.of_parse? huri
  refine ⟨hpath, htext.trans ?_⟩
  exact Uri.upToFragment_append (notMem_front collection hns (.inr rfl)) key.name

/-- A target without a query is its path. -/
theorem path_getRequest? (hns : IsNamespaceName key.ns)
    (h : getRequest? collection key = some request) (hquery : request.uri.query = none) :
    request.uri.path = front collection key.ns ++ Uri.upToFragment key.name := by
  rw [← (text_getRequest? hns h).2, ← Uri.text_of_path request.uri.path, ← hquery]

/-- A name without a question mark leads to a target without a query. -/
theorem query_getRequest? (hns : IsNamespaceName key.ns)
    (h : getRequest? collection key = some request) (hname : '?' ∉ key.name.toList) :
    request.uri.query = none := by
  have htext := congrArg String.toList (text_getRequest? hns h).2
  cases hquery : request.uri.query with
  | none =>
      rfl
  | some query =>
      have hmark : '?' ∈ request.uri.text.toList := by
        rw [show request.uri = ⟨request.uri.path, some query⟩ from hquery ▸ rfl,
          Uri.toList_text_of_query]
        exact List.mem_append_right _ List.mem_cons_self
      rw [htext, String.toList_append, List.mem_append] at hmark
      cases hmark with
      | inl hfront => exact absurd hfront (notMem_front collection hns (.inl rfl))
      | inr hback => exact absurd (Uri.mem_of_mem_upToFragment hback) hname

/-- The object is read if and only if its name is a segment for itself. -/
theorem readsObject_iff (hns : IsNamespaceName key.ns)
    (h : getRequest? collection key = some request) :
    ReadsObject collection key request ↔ IsSegment key.name := by
  constructor
  · rintro ⟨-, ⟨segment, hsegment, hidentifies⟩, hquery⟩
    have hpath := path_getRequest? hns h hquery
    obtain rfl : segment = Uri.upToFragment key.name :=
      String.toList_injective <| List.append_cancel_left <| by
        rw [← String.toList_append, ← String.toList_append]
        exact congrArg String.toList (hsegment.symm.trans hpath)
    -- The name has at least the bytes of what stands in front of a fragment.
    have hself := Uri.upToFragment_eq_self hidentifies.bytes
    rw [hself] at hidentifies hpath
    have hmark := (text_getRequest? hns h).1
    rw [hpath, String.toList_append, List.mem_append, not_or] at hmark
    exact {
      nonempty := hidentifies.nonempty
      chars c hc := ⟨fun heq => hidentifies.single (heq ▸ hc), fun heq => hmark.2 (heq ▸ hc),
        fun heq => Uri.notMem_upToFragment key.name (hself.symm ▸ heq ▸ hc)⟩
      noEscape := (segmentBytes_eq_iff _).1 hidentifies.bytes
      noDots := hidentifies.noDots }
  · intro hname
    have hquery := query_getRequest? hns h fun hmem => (hname.chars _ hmem).2.1 rfl
    have hpath := path_getRequest? hns h hquery
    rw [Uri.upToFragment_of_notMem fun hmem => (hname.chars _ hmem).2.2 rfl] at hpath
    obtain ⟨uri, -, rfl⟩ := getRequest?_eq_some h
    exact ⟨rfl, ⟨key.name, hpath, hname.nonempty, fun hmem => (hname.chars _ hmem).1 rfl,
      hname.noDots, (segmentBytes_eq_iff _).2 hname.noEscape⟩, hquery⟩

/-- Two keys share their request if and only if they have the namespace and the name up to a
fragment in common. -/
theorem eq_getRequest?_iff {other : Key} {sent : HttpRequest} (hns : IsNamespaceName key.ns)
    (hother : IsNamespaceName other.ns) (h : getRequest? collection key = some request)
    (hsent : getRequest? collection other = some sent) :
    sent = request ↔
      other.ns = key.ns ∧ Uri.upToFragment other.name = Uri.upToFragment key.name := by
  obtain ⟨hpath, htext⟩ := text_getRequest? hns h
  obtain ⟨hpath', htext'⟩ := text_getRequest? hother hsent
  constructor
  · rintro rfl
    exact front_append_inj collection hother hns (htext'.symm.trans htext)
  · rintro ⟨hnamespace, hname⟩
    rw [hnamespace, hname, ← htext] at htext'
    have huri := Uri.ext_of_text hpath' hpath htext'
    obtain ⟨uri, -, rfl⟩ := getRequest?_eq_some h
    obtain ⟨uri', -, rfl⟩ := getRequest?_eq_some hsent
    exact congrArg (HttpRequest.mk .get · none none none) huri

end Sent

/-! ## Calls -/

theorem requests_call {α : Type} (decode : Decoder α) (request : Option HttpRequest)
    (script : Script) :
    (call Script.transport decode request script).2.requests =
      script.requests ++ request.toList := by
  obtain ⟨answers, requests⟩ := script
  cases request with
  | none =>
      exact (List.append_nil requests).symm
  | some request =>
      rcases answers with _ | ⟨_ | response, answers⟩ <;> rfl

/-- What comes of a call that is to read the object under a key. -/
inductive Approached {α : Type} (collection : Collection) (key : Key) (script : Script) :
    Except ApiError α × Script → Prop where
  /-- The path to the object is refused as a target.  The call fails without a request. -/
  | unsent (refused : Uri.parse? (collection.objectPath key) = none) :
      Approached collection key script (.error .other, script)
  /-- One request is sent, to the path of the object up to a fragment.  It reads the object if and
  only if the name is a segment for itself, and other keys may come to the same request. -/
  | sent (request : HttpRequest) (result : Except ApiError α) (after : Script)
      (recorded : after.requests = script.requests ++ [request])
      (method : request.method = .get)
      (text : request.uri.text = collection.path key.ns ++ "/" ++ Uri.upToFragment key.name)
      (reads : ReadsObject collection key request ↔ IsSegment key.name)
      (shared : ∀ (other : Key) (sent : HttpRequest), IsNamespaceName other.ns →
        getRequest? collection other = some sent → (sent = request ↔
          other.ns = key.ns ∧ Uri.upToFragment other.name = Uri.upToFragment key.name)) :
      Approached collection key script (result, after)

theorem call_getRequest? {α : Type} (decode : Decoder α) (collection : Collection) {key : Key}
    (hns : IsNamespaceName key.ns) (script : Script) :
    Approached collection key script
      (call Script.transport decode (getRequest? collection key) script) := by
  have hrecorded := requests_call decode (getRequest? collection key) script
  cases hrequest : getRequest? collection key with
  | none =>
      exact .unsent (parse?_of_getRequest?_eq_none hrequest)
  | some request =>
      rw [hrequest] at hrecorded
      obtain ⟨uri, -, hget⟩ := getRequest?_eq_some hrequest
      exact .sent request _ _ hrecorded (congrArg HttpRequest.method hget)
        (text_getRequest? hns hrequest).2 (readsObject_iff hns hrequest)
        fun _ _ hother hsent => eq_getRequest?_iff hns hother hrequest hsent

/-- Reading a workload or a deployment sends no request, or one that leads to the object only if its
name is a segment of a path. -/
theorem store_reads_by_name {key : Key} (hns : IsNamespaceName key.ns) (script : Script) :
    Approached .workloads key script ((store Script.transport).getWorkload key script) ∧
      Approached .deployments key script ((store Script.transport).getDeployment key script) :=
  ⟨call_getRequest? Workload.decode .workloads hns script,
    call_getRequest? Deployment.decode .deployments hns script⟩

theorem isNamespaceName_shop : IsNamespaceName "shop" where
  nonempty := by decide
  short := by decide
  chars c hc := by
    have hmem : c ∈ ['s', 'h', 'o', 'p'] := hc
    simp only [List.mem_cons, List.not_mem_nil, or_false] at hmem
    rcases hmem with rfl | rfl | rfl | rfl <;> decide
  first := by decide
  last := by decide

theorem store_reads_by_name_shop :
    IsNamespaceName "shop" ∧
      Approached .workloads ⟨"shop", "web"⟩ ⟨[], []⟩
        ((store Script.transport).getWorkload ⟨"shop", "web"⟩ ⟨[], []⟩) ∧
      Approached .deployments ⟨"shop", "web"⟩ ⟨[], []⟩
        ((store Script.transport).getDeployment ⟨"shop", "web"⟩ ⟨[], []⟩) :=
  ⟨isNamespaceName_shop, store_reads_by_name isNamespaceName_shop ⟨[], []⟩⟩

/-- A call sends nothing, or one request, which reads the object under a key. -/
def ReadsOnly (collection : Collection) (key : Key) (script after : Script) : Prop :=
  after.requests = script.requests ∨ ∃ request, after.requests = script.requests ++ [request] ∧
    ReadsObject collection key request

/-- A name that climbs out of its namespace reads a workload of another one, and a name with a
fragment reads the workload that is named in front of it. -/
theorem workload_read_outside :
    let read (name : String) := ((store Script.transport).getWorkload ⟨"shop", name⟩ ⟨[], []⟩).2
    let climb := "../../other/containerizedworkloads/web"
    IsNamespaceName "shop" ∧ ¬ ReadsOnly .workloads ⟨"shop", climb⟩ ⟨[], []⟩ (read climb) ∧
      (read "web#1").requests = (read "web").requests ∧ (read "web").requests ≠ [] := by
  have hread (name : String) {uri : Uri}
      (h : Uri.parse? (Collection.workloads.objectPath ⟨"shop", name⟩) = some uri) :
      ((store Script.transport).getWorkload ⟨"shop", name⟩ ⟨[], []⟩).2.requests =
        [{ method := .get, uri }] :=
    (requests_call Workload.decode _ ⟨[], []⟩).trans
      (congrArg Option.toList (getRequest?_of_parse? h))
  have hclimb : Uri.parse?
      (Collection.workloads.objectPath ⟨"shop", "../../other/containerizedworkloads/web"⟩) =
      some ⟨Collection.workloads.path "shop" ++ "/../../other/containerizedworkloads/web", none⟩ :=
    by decide +kernel
  have hweb : Uri.parse? (Collection.workloads.objectPath ⟨"shop", "web"⟩) =
      some ⟨Collection.workloads.path "shop" ++ "/web", none⟩ := by
    decide +kernel
  have hmarked : Uri.parse? (Collection.workloads.objectPath ⟨"shop", "web#1"⟩) =
      some ⟨Collection.workloads.path "shop" ++ "/web", none⟩ := by
    decide +kernel
  refine ⟨isNamespaceName_shop, ?climbs, (hread _ hmarked).trans (hread _ hweb).symm,
    hread _ hweb ▸ List.cons_ne_nil _ _⟩
  rintro (hnone | ⟨request, hrecorded, hreads⟩)
  · exact List.cons_ne_nil _ _ ((hread _ hclimb).symm.trans hnone)
  · obtain ⟨rfl, -⟩ := List.cons.inj ((hread _ hclimb).symm.trans hrecorded)
    have hsegment := (readsObject_iff isNamespaceName_shop (getRequest?_of_parse? hclimb)).1 hreads
    exact (hsegment.chars '/' (by decide)).1 rfl

end Http

end ReplicaKeeper
