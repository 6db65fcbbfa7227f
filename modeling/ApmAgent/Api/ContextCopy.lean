import ApmAgent.Api.ContextHeap

/-! # Copying a context

  `Context.DeepCopy` and what the constructor of `Error` does with the copy.
  The request is copied with its headers, socket and URL, and so are the custom
  entries and the labels. The copy of the response is thrown away.

  A copy is described in two ways: by what is found at it (the `_copied`
  lemmas), and by what its objects refer to (the `_grows` lemmas): to new
  objects, or to the response, service and user of the original.
-/

namespace ApmAgent

namespace Api

open ObjectGraph

/-- A context with labels set by `SetLabel`. -/
def Context.withLabels (c : Context) : Option (Dict String Label) → Context
  | some labels =>
    { c with
      internalLabels :=
        { c.internalLabels with
          innerDictionary := c.internalLabels.innerDictionary.setAll labels.entries } }
  | none => c

namespace Heap

/-! ### `DeepCopy` -/

/-- The copy of an object that refers to no other. -/
def copyLeaf {β : Type} (h : Heap) (cast : ApiObject → Option β) (make : β → ApiObject)
    (r : Option ObjectRef) : Heap × Option ObjectRef :=
  match h.read cast r with
  | some b => (h.alloc (make b), some h.size)
  | none => (h, none)

/-- `headers.ToDictionary(entry => entry.Key, entry => entry.Value)`. -/
def toDictionary (headers : StringDictionary) : StringDictionary :=
  Dict.empty.setAll headers.entries

/-- `newItem.Headers = Headers.ToDictionary(..)`, unless they are null. -/
def copyHeaders (h : Heap) (headers : Option ObjectRef) : Heap × Option ObjectRef :=
  h.copyLeaf ApiObject.strings? (fun d => .strings (toDictionary d)) headers

/-- `newItem.Socket = Socket?.DeepCopy();` -/
def copySocket (h : Heap) (socket : Option ObjectRef) : Heap × Option ObjectRef :=
  h.copyLeaf ApiObject.socket? .socket socket

/-- `newItem.Url = Url?.DeepCopy();` -/
def copyUrl (h : Heap) (url : Option ObjectRef) : Heap × Option ObjectRef :=
  h.copyLeaf ApiObject.url? .url url

/-- `Request.DeepCopy`. The clone is created when its members are ready. -/
def requestDeepCopy (h : Heap) (o : RequestObject) : Heap × ObjectRef :=
  let headers := h.copyHeaders o.headers
  let socket := headers.1.copySocket o.socket
  let url := socket.1.copyUrl o.url
  (url.1.alloc (.request { o with headers := headers.2, socket := socket.2, url := url.2 }),
    url.1.size)

/-- `Response.DeepCopy`. -/
def responseDeepCopy (h : Heap) (o : ResponseObject) : Heap × ObjectRef :=
  let headers := h.copyHeaders o.headers
  (headers.1.alloc (.response { o with headers := headers.2 }), headers.1.size)

/-- `newItem.Request = Request?.DeepCopy();` -/
def copyRequest (h : Heap) (request : Option ObjectRef) : Heap × Option ObjectRef :=
  match h.read ApiObject.request? request with
  | some o => ((h.requestDeepCopy o).1, some (h.requestDeepCopy o).2)
  | none => (h, none)

/-- `newItem.Response?.DeepCopy();`: the copy is assigned to nothing. -/
def copyResponse (h : Heap) (response : Option ObjectRef) : Heap :=
  match h.read ApiObject.response? response with
  | some o => (h.responseDeepCopy o).1
  | none => h

/-- The custom entries set one by one on a new dictionary. -/
def copyCustom (h : Heap) (custom : ObjectRef) : Heap :=
  h.alloc (.strings (Dict.empty.setAll (h.customAt custom).entries))

/-- The labels set one by one on new dictionaries. -/
def copyLabels (h : Heap) (internalLabels : ObjectRef) : Heap :=
  h.alloc
    (.labels
      { base := Dict.empty.setAll (h.labelsAt internalLabels).base.entries
        innerDictionary :=
          Dict.empty.setAll (h.labelsAt internalLabels).innerDictionary.entries })

/-- `Context.DeepCopy`. What `MemberwiseClone` copied and nothing was assigned to stays
    shared. -/
def contextDeepCopy (h : Heap) (o : ContextObject) : Heap × ObjectRef :=
  let custom := h.copyCustom o.custom
  let labels := custom.copyLabels o.internalLabels
  let request := labels.copyRequest o.request
  let response := request.1.copyResponse o.response
  (response.alloc
      (.context
        { o with custom := h.size, internalLabels := custom.size, request := request.2 }),
    response.size)

/-! ### Copies of leaves -/

section
variable {β : Type} {cast : ApiObject → Option β} {make : β → ApiObject} {h : Heap}

theorem copyLeaf_grows (hmake : ∀ b, (make b).members = []) (r : Option ObjectRef)
    (Q : ObjectRef → Prop) : Grows ApiObject.members Q h (h.copyLeaf cast make r).1 := by
  unfold copyLeaf
  split
  · exact .alloc .refl (by simp [hmake])
  · exact .refl

/-- A copy is a new object. -/
theorem copyLeaf_ref (r : Option ObjectRef) :
    ∀ k ∈ (h.copyLeaf cast make r).2, h.size ≤ k ∧ k < (h.copyLeaf cast make r).1.size := by
  unfold copyLeaf
  split <;> simp

theorem copyLeaf_copied {f : β → β} (r : Option ObjectRef) {h' : Heap}
    (hkeeps : KeepsFrom h.size (h.copyLeaf cast make r).1 h')
    (hmake : ∀ b, cast (make b) = some (f b)) :
    h'.read cast (h.copyLeaf cast make r).2 = (h.read cast r).map f := by
  -- Null is not copied; otherwise the copy is the last object of the heap.
  cases hread : h.read cast r with
  | none =>
    have hcopy : h.copyLeaf cast make r = (h, none) := by simp [copyLeaf, hread]
    rw [hcopy]
    rfl
  | some b =>
    have hcopy : h.copyLeaf cast make r = (h.alloc (make b), some h.size) := by
      simp [copyLeaf, hread]
    rw [hcopy] at hkeeps ⊢
    have hget := hkeeps h.size (make b) (Nat.le_refl _) (Store.get?_alloc_size ..)
    simp [read, hget, hmake]

end

section
variable {h : Heap}

theorem copyHeaders_grows (r : Option ObjectRef) (Q : ObjectRef → Prop) :
    Grows ApiObject.members Q h (h.copyHeaders r).1 :=
  copyLeaf_grows (fun _ => rfl) r Q

theorem copySocket_grows (r : Option ObjectRef) (Q : ObjectRef → Prop) :
    Grows ApiObject.members Q h (h.copySocket r).1 :=
  copyLeaf_grows (fun _ => rfl) r Q

theorem copyUrl_grows (r : Option ObjectRef) (Q : ObjectRef → Prop) :
    Grows ApiObject.members Q h (h.copyUrl r).1 :=
  copyLeaf_grows (fun _ => rfl) r Q

theorem copyHeaders_copied (r : Option ObjectRef) {h' : Heap}
    (hkeeps : KeepsFrom h.size (h.copyHeaders r).1 h') :
    h'.read ApiObject.strings? (h.copyHeaders r).2 = h.read ApiObject.strings? r := by
  have hcopied : h'.read ApiObject.strings? (h.copyHeaders r).2 =
      (h.read ApiObject.strings? r).map toDictionary :=
    copyLeaf_copied r hkeeps (by exact fun _ => rfl)
  rw [hcopied]
  cases h.read ApiObject.strings? r with
  | none => rfl
  | some d => exact congrArg some d.setAll_empty

theorem copySocket_copied (r : Option ObjectRef) {h' : Heap}
    (hkeeps : KeepsFrom h.size (h.copySocket r).1 h') :
    h'.read ApiObject.socket? (h.copySocket r).2 = h.read ApiObject.socket? r := by
  have hcopied : h'.read ApiObject.socket? (h.copySocket r).2 = (h.read ApiObject.socket? r).map id :=
    copyLeaf_copied r hkeeps (by exact fun _ => rfl)
  rw [hcopied, Option.map_id_fun, id]

theorem copyUrl_copied (r : Option ObjectRef) {h' : Heap}
    (hkeeps : KeepsFrom h.size (h.copyUrl r).1 h') :
    h'.read ApiObject.url? (h.copyUrl r).2 = h.read ApiObject.url? r := by
  have hcopied : h'.read ApiObject.url? (h.copyUrl r).2 = (h.read ApiObject.url? r).map id :=
    copyLeaf_copied r hkeeps (by exact fun _ => rfl)
  rw [hcopied, Option.map_id_fun, id]

/-- References in use are read alike after the heap has grown. -/
theorem read_of_grows {β : Type} {Q : ObjectRef → Prop} {h' : Heap}
    (hgrows : Grows ApiObject.members Q h h') {cast : ApiObject → Option β}
    {r : Option ObjectRef} (hr : ∀ k ∈ r, k < h.size) : h'.read cast r = h.read cast r :=
  read_congr fun k hk => hgrows.get?_eq (hr k hk)

end

/-! ### The request -/

section
variable {h : Heap}

/-- The new objects of a copied request refer to new objects. -/
theorem requestDeepCopy_grows (o : RequestObject) :
    Grows ApiObject.members (h.size ≤ ·) h (h.requestDeepCopy o).1 := by
  let headers := h.copyHeaders o.headers
  let socket := headers.1.copySocket o.socket
  let url := socket.1.copyUrl o.url
  have hheaders : Grows ApiObject.members (h.size ≤ ·) h headers.1 := copyHeaders_grows ..
  have hsocket : Grows ApiObject.members (h.size ≤ ·) h socket.1 :=
    hheaders.trans (copySocket_grows ..)
  have hurl : Grows ApiObject.members (h.size ≤ ·) h url.1 := hsocket.trans (copyUrl_grows ..)
  -- The clone refers to the three copies, each of them on the heap when it was made.
  refine .alloc hurl fun k hk => ?_
  simp only [ApiObject.members, List.mem_append, Option.mem_toList] at hk
  rcases hk with (hk | hk) | hk
  · obtain ⟨hle, hlt⟩ := copyLeaf_ref _ k hk
    have hgrows : Grows ApiObject.members (fun _ => True) headers.1 url.1 :=
      (copySocket_grows ..).trans (copyUrl_grows ..)
    have hsize := hgrows.size_le
    exact ⟨hle, Nat.lt_of_lt_of_le hlt hsize⟩
  · obtain ⟨hle, hlt⟩ := copyLeaf_ref _ k hk
    have hsize := (copyUrl_grows o.url (fun _ => True) (h := socket.1)).size_le
    exact ⟨Nat.le_trans hheaders.size_le hle, Nat.lt_of_lt_of_le hlt hsize⟩
  · obtain ⟨hle, hlt⟩ := copyLeaf_ref _ k hk
    exact ⟨Nat.le_trans hsocket.size_le hle, hlt⟩

theorem requestDeepCopy_ref (o : RequestObject) : h.size ≤ (h.requestDeepCopy o).2 :=
  (((copyHeaders_grows o.headers (fun _ => True)).trans (copySocket_grows ..)).trans
    (copyUrl_grows ..)).size_le

/-- What is found at a copied request. -/
theorem requestDeepCopy_copied {o : RequestObject}
    (ho : ∀ k ∈ (ApiObject.request o).members, k < h.size) {h' : Heap}
    (hkeeps : KeepsFrom h.size (h.requestDeepCopy o).1 h') :
    h'.requestAt (some (h.requestDeepCopy o).2) = some (h.requestOf o) := by
  let headers := h.copyHeaders o.headers
  let socket := headers.1.copySocket o.socket
  let url := socket.1.copyUrl o.url
  have hheaders : Grows ApiObject.members (fun _ => True) h headers.1 := copyHeaders_grows ..
  have hsocket : Grows ApiObject.members (fun _ => True) headers.1 socket.1 :=
    copySocket_grows ..
  have hurl : Grows ApiObject.members (fun _ => True) socket.1 url.1 := copyUrl_grows ..
  -- What each copy left on the heap is still there at the end.
  have hkeepsUrl : KeepsFrom h.size url.1 h' :=
    fun r a hr ha => hkeeps r a hr (Store.get?_alloc_of_some ha _)
  have hkeepsSocket : KeepsFrom h.size socket.1 h' :=
    (hurl.keeps.mono (Nat.zero_le _)).trans hkeepsUrl
  have hkeepsHeaders : KeepsFrom h.size headers.1 h' :=
    (hsocket.keeps.mono (Nat.zero_le _)).trans hkeepsSocket
  have hget : h'.get? url.1.size =
      some (.request { o with headers := headers.2, socket := socket.2, url := url.2 }) :=
    hkeeps _ _ (requestDeepCopy_ref o) (Store.get?_alloc_size ..)
  have hm (m : Member) {r : Option ObjectRef} (hm : (ApiObject.request o).member m = r) :
      ∀ k ∈ r, k < h.size :=
    fun k hk => ho k (ApiObject.member_mem (hm.trans hk))
  have hreadHeaders : h'.read ApiObject.strings? headers.2 =
      h.read ApiObject.strings? o.headers :=
    copyHeaders_copied o.headers hkeepsHeaders
  have hreadSocket : h'.read ApiObject.socket? socket.2 = h.read ApiObject.socket? o.socket := by
    rw [copySocket_copied o.socket (hkeepsSocket.mono hheaders.size_le)]
    exact read_of_grows hheaders (hm .socket rfl)
  have hreadUrl : h'.read ApiObject.url? url.2 = h.read ApiObject.url? o.url := by
    rw [copyUrl_copied o.url (hkeepsUrl.mono (hheaders.trans hsocket).size_le)]
    exact read_of_grows (hheaders.trans hsocket) (hm .url rfl)
  -- The clone is read, and its members read as those of the original.
  have hread : h'.read ApiObject.request? (some url.1.size) =
      some { o with headers := headers.2, socket := socket.2, url := url.2 } := by
    simp [read, hget, ApiObject.request?]
  show (h'.read ApiObject.request? (some url.1.size)).map h'.requestOf = _
  rw [hread, Option.map_some]
  simp only [requestOf, hreadHeaders, hreadSocket, hreadUrl]

/-- The copy of a request that may be null. -/
theorem copyRequest_copied {request : Option ObjectRef}
    (hdangling : NoDangling ApiObject.members h)
    {h' : Heap} (hkeeps : KeepsFrom h.size (h.copyRequest request).1 h') :
    h'.requestAt (h.copyRequest request).2 = h.requestAt request := by
  cases hread : h.read ApiObject.request? request with
  | none =>
    have hcopy : h.copyRequest request = (h, none) := by simp [copyRequest, hread]
    rw [hcopy, requestAt, requestAt, hread]
    rfl
  | some o =>
    have hcopy : h.copyRequest request = ((h.requestDeepCopy o).1, some (h.requestDeepCopy o).2) := by
      simp [copyRequest, hread]
    -- The original names its members, which do not dangle.
    obtain ⟨k, a, rfl, ha, hcast⟩ := read_eq_some.mp hread
    have ho : a = .request o := by
      cases a <;> simp_all [ApiObject.request?]
    subst ho
    rw [hcopy] at hkeeps ⊢
    rw [requestDeepCopy_copied (hdangling k _ ha) hkeeps, requestAt, hread,
      Option.map_some]

theorem copyRequest_grows (request : Option ObjectRef) :
    Grows ApiObject.members (h.size ≤ ·) h (h.copyRequest request).1 := by
  unfold copyRequest
  split
  · exact requestDeepCopy_grows _
  · exact .refl

theorem copyRequest_ref (request : Option ObjectRef) :
    ∀ k ∈ (h.copyRequest request).2, h.size ≤ k ∧ k < (h.copyRequest request).1.size := by
  unfold copyRequest
  split
  · rename_i o _
    have hlt : (h.requestDeepCopy o).2 < (h.requestDeepCopy o).1.size :=
      Store.lt_size (Store.get?_alloc_size ..)
    simpa using ⟨requestDeepCopy_ref o, hlt⟩
  · simp

/-- The copy of the response, which nothing will refer to, refers to new objects. -/
theorem copyResponse_grows (response : Option ObjectRef) :
    Grows ApiObject.members (h.size ≤ ·) h (h.copyResponse response) := by
  unfold copyResponse
  split
  · refine .alloc (copyHeaders_grows ..) fun k hk => ?_
    simp only [ApiObject.members, Option.mem_toList] at hk
    exact copyLeaf_ref _ k hk
  · exact .refl

end

/-! ### The context -/

section
variable {h : Heap}

/-- The heap with the copies of the dictionaries. -/
def copyDictionaries (h : Heap) (o : ContextObject) : Heap :=
  (h.copyCustom o.custom).copyLabels o.internalLabels

/-- The heap with the copies of all members. -/
def copyMembers (h : Heap) (o : ContextObject) : Heap :=
  ((h.copyDictionaries o).copyRequest o.request).1.copyResponse o.response

/-- The clone of a context with its copied members. -/
def clone (h : Heap) (o : ContextObject) : ContextObject :=
  { o with
    custom := h.size
    internalLabels := h.size + 1
    request := ((h.copyDictionaries o).copyRequest o.request).2 }

theorem size_copyDictionaries (o : ContextObject) :
    (h.copyDictionaries o).size = h.size + 2 := by
  simp [copyDictionaries, copyLabels, copyCustom]

theorem contextDeepCopy_eq (o : ContextObject) :
    h.contextDeepCopy o =
      ((h.copyMembers o).alloc (.context (h.clone o)), (h.copyMembers o).size) := by
  simp [contextDeepCopy, copyMembers, copyDictionaries, clone, copyCustom]

theorem copyDictionaries_grows (o : ContextObject) (Q : ObjectRef → Prop) :
    Grows ApiObject.members Q h (h.copyDictionaries o) :=
  .alloc (.alloc .refl (by simp [ApiObject.members])) (by simp [ApiObject.members])

theorem copyMembers_grows_request (o : ContextObject) :
    Grows ApiObject.members ((h.copyDictionaries o).size ≤ ·)
      ((h.copyDictionaries o).copyRequest o.request).1 (h.copyMembers o) :=
  (copyResponse_grows o.response).mono fun _ hk =>
    Nat.le_trans (copyRequest_grows o.request).size_le hk

theorem copyMembers_grows (o : ContextObject) :
    Grows ApiObject.members (h.size ≤ ·) h (h.copyMembers o) :=
  (copyDictionaries_grows o _).trans
    (((copyRequest_grows o.request).trans (copyMembers_grows_request o)).mono fun _ hk =>
      Nat.le_trans (copyDictionaries_grows o (fun _ => True)).size_le hk)

theorem contextDeepCopy_ref (o : ContextObject) : h.size + 2 ≤ (h.contextDeepCopy o).2 := by
  rw [contextDeepCopy_eq, ← size_copyDictionaries o]
  exact ((copyRequest_grows o.request).trans (copyMembers_grows_request o)).size_le

/-- The new objects of a copied context refer to new objects, and to the response, service and
    user of the original. -/
theorem contextDeepCopy_grows {o : ContextObject}
    (ho : ∀ k ∈ (ApiObject.context o).members, k < h.size) :
    Grows ApiObject.members
      (fun k => h.size ≤ k ∨ k ∈ o.response ∨ k ∈ o.service ∨ k ∈ o.user) h
      (h.contextDeepCopy o).1 := by
  have hsize := contextDeepCopy_ref o (h := h)
  have hold (m : Member) {k : ObjectRef} (hk : (ApiObject.context o).member m = some k) :
      k < (h.copyMembers o).size :=
    Nat.lt_of_lt_of_le (ho k (ApiObject.member_mem hk)) (copyMembers_grows o).size_le
  rw [contextDeepCopy_eq] at hsize ⊢
  refine .alloc ((copyMembers_grows o).mono fun _ => .inl) fun k hk => ?_
  simp only [ApiObject.members, clone, List.mem_cons, List.mem_append, Option.mem_toList] at hk
  -- The two dictionaries, the request, and the three members that are not copied.
  rcases hk with rfl | rfl | ((hk | hk) | hk) | hk
  · exact ⟨.inl (Nat.le_refl _), by omega⟩
  · exact ⟨.inl (Nat.le_succ _), by omega⟩
  · obtain ⟨hle, hlt⟩ := copyRequest_ref o.request k hk
    rw [size_copyDictionaries] at hle
    exact ⟨.inl (by omega), Nat.lt_of_lt_of_le hlt (copyMembers_grows_request o).size_le⟩
  · exact ⟨.inr (.inl hk), hold .response hk⟩
  · exact ⟨.inr (.inr (.inl hk)), hold .service hk⟩
  · exact ⟨.inr (.inr (.inr hk)), hold .user hk⟩

theorem noDangling_copyDictionaries (o : ContextObject)
    (hdangling : NoDangling ApiObject.members h) :
    NoDangling ApiObject.members (h.copyDictionaries o) :=
  (hdangling.alloc (by simp [ApiObject.members])).alloc (by simp [ApiObject.members])

/-- The copied request in the copied context. -/
theorem clone_request_copied {o : ContextObject} (hdangling : NoDangling ApiObject.members h)
    (ho : ∀ k ∈ (ApiObject.context o).members, k < h.size) {h' : Heap}
    (hkeeps : KeepsFrom (h.size + 2) (h.contextDeepCopy o).1 h') :
    h'.requestAt (h.clone o).request = h.requestAt o.request := by
  have hgrows := copyDictionaries_grows o (h := h) (fun _ => True)
  have hmembers := (copyMembers_grows_request o (h := h)).keeps
  -- The request was copied after the dictionaries; what came later leaves it alone.
  have hkeepsRequest : KeepsFrom (h.copyDictionaries o).size
      ((h.copyDictionaries o).copyRequest o.request).1 h' := by
    intro r a hr ha
    rw [size_copyDictionaries] at hr
    rw [contextDeepCopy_eq] at hkeeps
    exact hkeeps r a hr (Store.get?_alloc_of_some (hmembers r a (Nat.zero_le r) ha) _)
  calc h'.requestAt (h.clone o).request
      = (h.copyDictionaries o).requestAt o.request :=
        copyRequest_copied (noDangling_copyDictionaries o hdangling) hkeepsRequest
    _ = h.requestAt o.request :=
        requestAt_congr hdangling.closed (fun _ hr => hgrows.get?_eq hr) fun k hk =>
          ho k (ApiObject.member_mem (o := .context o) (m := .request) hk)

/-- The copied custom entries in the copied context. -/
theorem clone_custom_copied {o : ContextObject} {h' : Heap}
    (hget : ∀ a, (h.contextDeepCopy o).1.get? h.size = some a → h'.get? h.size = some a) :
    h'.customAt (h.clone o).custom = h.customAt o.custom := by
  have hcustom : (h.copyDictionaries o).get? h.size =
      some (.strings (Dict.empty.setAll (h.customAt o.custom).entries)) :=
    Store.get?_alloc_of_some (Store.get?_alloc_size ..) _
  have hfinal : (h.contextDeepCopy o).1.get? h.size =
      some (.strings (Dict.empty.setAll (h.customAt o.custom).entries)) := by
    rw [contextDeepCopy_eq]
    exact Store.get?_alloc_of_some
      (((copyRequest_grows o.request).trans (copyMembers_grows_request o)).keeps _ _
        (Nat.zero_le _) hcustom) _
  show (h'.read ApiObject.strings? (some h.size)).getD .empty = _
  simp [read, hget _ hfinal, ApiObject.strings?, Dict.setAll_empty]

/-- What is found at a copied context, on a heap where nothing but the labels of the copy has
    changed since. -/
theorem contextDeepCopy_copied {o : ContextObject} (hdangling : NoDangling ApiObject.members h)
    (ho : ∀ k ∈ (ApiObject.context o).members, k < h.size) {h' : Heap}
    (hkeeps : ∀ r a, r ≠ h.size + 1 → (h.contextDeepCopy o).1.get? r = some a →
      h'.get? r = some a) :
    h'.contextAt (h.contextDeepCopy o).2 =
      some { h.contextOf o with internalLabels := h'.labelsAt (h.size + 1) } := by
  have href := contextDeepCopy_ref o (h := h)
  -- The labels of the copy are not among the objects that were there before.
  have hold : ∀ r, r < h.size → h'.get? r = h.get? r := by
    intro r hr
    have hget : h.get? r = some h.objects[r] := List.getElem?_eq_getElem hr
    have hcopy := (contextDeepCopy_grows ho).keeps r _ (Nat.zero_le r) hget
    rw [hget, hkeeps r _ (by omega) hcopy]
  have hm (m : Member) {r : Option ObjectRef} (hm : (ApiObject.context o).member m = r) :
      ∀ k ∈ r, k < h.size :=
    fun k hk => ho k (ApiObject.member_mem (hm.trans hk))
  have hclone : h'.read ApiObject.context? (some (h.contextDeepCopy o).2) =
      some (h.clone o) := by
    have hget : (h.contextDeepCopy o).1.get? (h.contextDeepCopy o).2 =
        some (.context (h.clone o)) := by
      rw [contextDeepCopy_eq]
      exact Store.get?_alloc_size ..
    simp [read, hkeeps _ _ (by omega) hget, ApiObject.context?]
  -- Custom entries and request were copied, the other members are the original's.
  have hcustom := clone_custom_copied (o := o) fun a => hkeeps h.size a (by omega)
  have hrequest := clone_request_copied hdangling ho fun r a hr => hkeeps r a (by omega)
  have hresponse : h'.responseAt o.response = h.responseAt o.response :=
    responseAt_congr hdangling.closed hold (hm .response rfl)
  have hservice : h'.serviceAt o.service = h.serviceAt o.service :=
    serviceAt_congr hdangling.closed hold (hm .service rfl)
  have huser : h'.read ApiObject.user? o.user = h.read ApiObject.user? o.user :=
    read_congr fun k hk => hold k (hm .user rfl k hk)
  rw [contextAt, hclone, Option.map_some]
  unfold contextOf
  rw [hcustom, hrequest, ← hresponse, ← hservice, ← huser]
  rfl

end

/-! ### The constructor of `Error` -/

/-- `foreach (var item in labels) Context.InternalLabels.Value.InnerDictionary[item.Key] =
    item.Value;` on the context at `context`. -/
def setInnerLabels (h : Heap) (context : ObjectRef) (labels : Dict String Label) : Heap :=
  match h.read ApiObject.context? (some context) with
  | some o =>
    h.update o.internalLabels fun _ =>
      .labels
        { h.labelsAt o.internalLabels with
          innerDictionary :=
            (h.labelsAt o.internalLabels).innerDictionary.setAll labels.entries }
  | none => h

/-- The context of an error: a copy of its transaction's context with the labels passed to the
    capture call. -/
def errorContext (h : Heap) (o : ContextObject) (labels : Option (Dict String Label)) :
    Heap × ObjectRef :=
  let context := h.contextDeepCopy o
  match labels with
  | some labels => (context.1.setInnerLabels context.2 labels, context.2)
  | none => context

section
variable {h : Heap} {o : ContextObject}

theorem contextDeepCopy_get?_clone :
    (h.contextDeepCopy o).1.get? (h.contextDeepCopy o).2 = some (.context (h.clone o)) := by
  rw [contextDeepCopy_eq]
  exact Store.get?_alloc_size ..

/-- The copied labels. -/
theorem contextDeepCopy_labels (hlabels : o.internalLabels < h.size) :
    (h.contextDeepCopy o).1.labelsAt (h.size + 1) = h.labelsAt o.internalLabels := by
  -- They are copied right after the custom entries, into the second new object.
  have hsize : (h.copyCustom o.custom).size = h.size + 1 := Store.size_alloc ..
  have hread : (h.copyCustom o.custom).labelsAt o.internalLabels =
      h.labelsAt o.internalLabels := by
    have hgrows : Grows ApiObject.members (fun _ => True) h (h.copyCustom o.custom) :=
      .alloc .refl (by simp [ApiObject.members])
    unfold labelsAt
    rw [read_of_grows hgrows (by simpa using hlabels)]
  have hcopy : (h.copyDictionaries o).get? (h.size + 1) =
      some (.labels (h.labelsAt o.internalLabels)) := by
    rw [copyDictionaries, copyLabels, hread, Dict.setAll_empty, Dict.setAll_empty, ← hsize]
    exact Store.get?_alloc_size ..
  have hfinal : (h.contextDeepCopy o).1.get? (h.size + 1) =
      some (.labels (h.labelsAt o.internalLabels)) := by
    rw [contextDeepCopy_eq]
    exact Store.get?_alloc_of_some
      (((copyRequest_grows o.request).trans (copyMembers_grows_request o)).keeps _ _
        (Nat.zero_le _) hcopy) _
  rw [labelsAt]
  simp [read, hfinal, ApiObject.labels?]

/-- Setting labels on the copy writes its own labels. -/
theorem setInnerLabels_copy (labels : Dict String Label) :
    (h.contextDeepCopy o).1.setInnerLabels (h.contextDeepCopy o).2 labels =
      (h.contextDeepCopy o).1.update (h.size + 1) fun _ =>
        .labels
          { (h.contextDeepCopy o).1.labelsAt (h.size + 1) with
            innerDictionary :=
              ((h.contextDeepCopy o).1.labelsAt (h.size + 1)).innerDictionary.setAll
                labels.entries } := by
  have hread : (h.contextDeepCopy o).1.read ApiObject.context? (some (h.contextDeepCopy o).2) =
      some (h.clone o) := by
    simp [read, contextDeepCopy_get?_clone, ApiObject.context?]
  simp only [setInnerLabels, hread, clone]

variable (labels : Option (Dict String Label))

theorem errorContext_ref : (h.errorContext o labels).2 = (h.contextDeepCopy o).2 := by
  cases labels <;> rfl

/-- Nothing but the labels of the copy is written. -/
theorem errorContext_keeps {r : ObjectRef} (hr : r ≠ h.size + 1) :
    (h.errorContext o labels).1.get? r = (h.contextDeepCopy o).1.get? r := by
  cases labels with
  | none => rfl
  | some labels =>
    show ((h.contextDeepCopy o).1.setInnerLabels _ labels).get? r = _
    rw [setInnerLabels_copy, Store.get?_update_ne _ (Ne.symm hr)]

theorem errorContext_size : (h.errorContext o labels).1.size = (h.contextDeepCopy o).1.size := by
  cases labels with
  | none => rfl
  | some labels =>
    show ((h.contextDeepCopy o).1.setInnerLabels _ labels).size = _
    rw [setInnerLabels_copy, Store.size_update]

theorem errorContext_closed {P : ObjectRef → Prop}
    (hclosed : Closed ApiObject.members P (h.contextDeepCopy o).1) :
    Closed ApiObject.members P (h.errorContext o labels).1 := by
  cases labels with
  | none => exact hclosed
  | some labels =>
    show Closed _ P ((h.contextDeepCopy o).1.setInnerLabels _ labels)
    rw [setInnerLabels_copy]
    exact hclosed.assign fun _ => by simp [ApiObject.members]

theorem errorContext_labels (hlabels : o.internalLabels < h.size) :
    (h.errorContext o labels).1.labelsAt (h.size + 1) =
      ((h.contextOf o).withLabels labels).internalLabels := by
  have hcopy := contextDeepCopy_labels hlabels
  cases labels with
  | none => exact hcopy
  | some labels =>
    have hlt : h.size + 1 < (h.contextDeepCopy o).1.size :=
      Nat.lt_of_lt_of_le (contextDeepCopy_ref o)
        (Nat.le_of_lt (Store.lt_size contextDeepCopy_get?_clone))
    have hget : (h.contextDeepCopy o).1.get? (h.size + 1) =
        some (h.contextDeepCopy o).1.objects[h.size + 1] := List.getElem?_eq_getElem hlt
    show ((h.contextDeepCopy o).1.setInnerLabels _ labels).labelsAt (h.size + 1) = _
    rw [setInnerLabels_copy, hcopy, labelsAt]
    simp [read, Store.get?_update_self, hget, ApiObject.labels?, Context.withLabels, contextOf]

/-- The error has the context that the transaction had, and the labels of the call. -/
theorem errorContext_contextAt (hdangling : NoDangling ApiObject.members h)
    (ho : ∀ k ∈ (ApiObject.context o).members, k < h.size) :
    (h.errorContext o labels).1.contextAt (h.errorContext o labels).2 =
      some ((h.contextOf o).withLabels labels) := by
  -- Setting the labels of the call is the one change after the copy.
  rw [errorContext_ref, contextDeepCopy_copied hdangling ho fun r a hr ha => by
    rw [errorContext_keeps labels hr, ha]]
  rw [errorContext_labels labels (ho _ (by simp [ApiObject.members]))]
  cases labels <;> rfl

end

end Heap

end Api

end ApmAgent
