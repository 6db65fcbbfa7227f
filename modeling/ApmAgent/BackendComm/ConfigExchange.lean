import ApmAgent.BackendComm.CentralConfigOverlay

/-! # The exchange with the APM Server

  The fetcher asks for the configuration and sends the ETag of the one it has.
  The server answers; its configuration changes at any time, also while a
  message is in flight, and a message may be lost.

  What the server answers is not fixed. `AnswersAsAsked` says what the fetcher
  relies on: 304 is only said to the tag of the configuration that the server
  has, and a configuration that can be read is the one of the tag it is sent
  with. Tags are compared weakly.

  `agrees`: the configuration in force is the one the server had when it gave
  the last answer that was received and could be used, and each request asks
  for another one than that.
-/

namespace ApmAgent

/-- A message, with the tag of the configuration that the server had when it answered. -/
inductive ConfigMessage where
  | request (r : HttpRequest)
  | response (r : HttpResponse) (body : String) (answered : String)

structure ConfigExchange where
  /-- The tag of the configuration that the server has. -/
  server : String
  workLoop : WorkLoop
  message : Option ConfigMessage
  /-- Ghost: what the server had when it gave the last answer that was received and could be
      used. -/
  confirmed : Option String

inductive ExchangeStep where
  /-- The configuration of the server changes. -/
  | publish (tag : String)
  | send
  | answer (response : HttpResponse) (body : String)
  /-- The response is received. -/
  | receive (waiting : Waiting)
  /-- A message is lost, or the fetcher gives up. -/
  | fail (outcome : FetchOutcome) (waiting : Waiting)

namespace ConfigExchange

section

variable [InvariantCulture] [JsonConvert]

omit [InvariantCulture] [JsonConvert] in
def start (initialSnapshot : ConfigSnapshot) (server : String) : ConfigExchange where
  server := server
  workLoop := .start initialSnapshot
  message := none
  confirmed := none

/-- The response can be used: it has a configuration, or says that there is no other one. -/
def IsUsed (r : HttpResponse) (body : String) : Prop :=
  r.statusCode = 304 ∨ (completelyParsed (.response r body)).isSome

instance (r : HttpResponse) (body : String) : Decidable (IsUsed r body) :=
  inferInstanceAs (Decidable (_ ∨ _))

omit [InvariantCulture] [JsonConvert] in
/-- No response is received. -/
def isFailure : FetchOutcome → Bool
  | .response _ _ => false
  | _ => true

def step (x : ConfigExchange) : ExchangeStep → Option ConfigExchange
  | .publish tag => some { x with server := tag }
  | .send =>
    if x.message.isSome ∨ x.workLoop.exited.isSome then none
    else some { x with message := some (.request (buildHttpRequest x.workLoop.fetcher.eTag)) }
  | .answer response body =>
    match x.message with
    | some (.request _) => some { x with message := some (.response response body x.server) }
    | _ => none
  | .receive waiting =>
    match x.message with
    | some (.response r body answered) =>
      (x.workLoop.step ⟨.response r body, waiting⟩).map fun workLoop =>
        { x with
          workLoop := workLoop
          message := none
          confirmed := if IsUsed r body then some answered else x.confirmed }
    | _ => none
  | .fail outcome waiting =>
    if x.message.isSome ∧ isFailure outcome then
      (x.workLoop.step ⟨outcome, waiting⟩).map fun workLoop =>
        { x with workLoop := workLoop, message := none }
    else none

/-- The exchange of an agent with its server. -/
def system (initialSnapshot : ConfigSnapshot) : LTS.System ConfigExchange ExchangeStep where
  init x := ∃ server, x = start initialSnapshot server
  step := step

/-! ### What the server may answer -/

/-- What the fetcher relies on in an answer to a request: 304 says that the server's configuration is
    the one asked about; and a configuration that can be read is the server's, with its tag. -/
structure AnswerOk (bodyOf : String → String) (server : String) (request : HttpRequest)
    (response : HttpResponse) (body : String) : Prop where
  notModified : response.statusCode = 304 → server ∈ request.ifNoneMatch.map (·.tag)
  configuration : (completelyParsed (.response response body)).isSome →
    body = bodyOf server ∧ response.eTag.map (·.tag) = some server

/-- The server answers as it is asked, given the configuration of each tag. -/
def AnswersAsAsked (bodyOf : String → String) (x : ConfigExchange) : ExchangeStep → Prop
  | .answer response body =>
    ∀ request, x.message = some (.request request) →
      AnswerOk bodyOf x.server request response body
  | _ => True

/-! ### What is in force -/

/-- The configuration of a tag is in force: the fetcher has the tag, and what the body says is laid
    over the initial snapshot. -/
structure InForce (bodyOf : String → String) (initialSnapshot : ConfigSnapshot)
    (f : CentralConfigFetcher) (answered : String) (p : ParsedResponse) : Prop where
  eTag : f.eTag = some p.eTag
  tag : p.eTag.tag = answered
  body : JsonConvert.deserializeDictionary (bodyOf answered) = .ok (some p.payload.keyValues)
  snapshot : f.currentSnapshot = overlay initialSnapshot p

/-- What the fetcher has is what was confirmed last. -/
inductive Settled (bodyOf : String → String) (initialSnapshot : ConfigSnapshot)
    (f : CentralConfigFetcher) : Option String → Prop where
  | initial (heTag : f.eTag = none) (hsnapshot : f.currentSnapshot = initialSnapshot) :
      Settled bodyOf initialSnapshot f none
  | central (tag : String) (p : ParsedResponse) (h : InForce bodyOf initialSnapshot f tag p) :
      Settled bodyOf initialSnapshot f (some tag)

/-- The fetcher has what was confirmed last, and asks about it. -/
structure Agrees (bodyOf : String → String) (initialSnapshot : ConfigSnapshot)
    (x : ConfigExchange) : Prop where
  settled : Settled bodyOf initialSnapshot x.workLoop.fetcher x.confirmed
  asks : ∀ request, x.message = some (.request request) →
    request.ifNoneMatch.map (·.tag) = x.confirmed.toList

/-- What a message in flight says. -/
def MessageOk (bodyOf : String → String) (f : CentralConfigFetcher) : ConfigMessage → Prop
  | .request r => r = buildHttpRequest f.eTag
  | .response r body answered => AnswerOk bodyOf answered (buildHttpRequest f.eTag) r body

structure Invariant (bodyOf : String → String) (initialSnapshot : ConfigSnapshot)
    (x : ConfigExchange) : Prop where
  initial : x.workLoop.fetcher.initialSnapshot = initialSnapshot
  settled : Settled bodyOf initialSnapshot x.workLoop.fetcher x.confirmed
  message : ∀ m ∈ x.message, MessageOk bodyOf x.workLoop.fetcher m

variable {bodyOf : String → String} {initialSnapshot : ConfigSnapshot} {x x' : ConfigExchange}
  {f : CentralConfigFetcher}

theorem completelyParsed_response {r : HttpResponse} {body : String} {p : ParsedResponse}
    (h : completelyParsed (.response r body) = some p) :
    r.eTag = some p.eTag ∧
      JsonConvert.deserializeDictionary body = .ok (some p.payload.keyValues) := by
  simp only [completelyParsed] at h
  split at h
  · split at h
    · next eTag keyValues heTag hbody =>
      split at h
      · cases h
        exact ⟨heTag, hbody⟩
      · cases h
    · cases h
  · cases h

/-- The tag of the fetcher is the one that was confirmed. -/
theorem Settled.tag_eq {confirmed : Option String}
    (h : Settled bodyOf initialSnapshot f confirmed) : f.eTag.map (·.tag) = confirmed := by
  cases h with
  | initial heTag hsnapshot =>
    rw [heTag]
    rfl
  | central answered p h =>
    rw [h.eTag, Option.map_some, h.tag]

omit [InvariantCulture] [JsonConvert] in
theorem mem_ifNoneMatch {tag : String} :
    tag ∈ (buildHttpRequest f.eTag).ifNoneMatch.map (·.tag) ↔ f.eTag.map (·.tag) = some tag := by
  cases f.eTag <;> simp [buildHttpRequest, eq_comm]

/-- Receiving a response. -/
theorem Invariant.receive (h : Invariant bodyOf initialSnapshot x) {r : HttpResponse}
    {body answered : String} {waiting : Waiting} {workLoop : WorkLoop}
    (hmessage : x.message = some (.response r body answered))
    (hstep : x.workLoop.step ⟨.response r body, waiting⟩ = some workLoop) :
    Invariant bodyOf initialSnapshot
      { x with
        workLoop := workLoop
        message := none
        confirmed := if IsUsed r body then some answered else x.confirmed } := by
  have hfetcher := workLoop_step_fetcher hstep
  obtain ⟨hnotModified, hconfiguration⟩ := h.message _ hmessage
  cases hparsed : completelyParsed (.response r body) with
  | none =>
    -- The fetcher stays as it is; 304 confirms what it has.
    rw [hparsed] at hfetcher
    refine ⟨by rw [hfetcher]; exact h.initial, ?_, nofun⟩
    have hsame : (if IsUsed r body then some answered else x.confirmed) = x.confirmed := by
      split
      · next hused =>
        obtain hcode | hsome := hused
        · rw [← h.settled.tag_eq, mem_ifNoneMatch.mp (hnotModified hcode)]
        · rw [hparsed] at hsome
          cases hsome
      · rfl
    rw [hsame, hfetcher]
    exact h.settled
  | some p =>
    -- What was read is the server's configuration, under the server's tag.
    rw [hparsed] at hfetcher
    have hsome : (completelyParsed (.response r body)).isSome := by
      rw [hparsed]
      rfl
    obtain ⟨heTag, hbody⟩ := completelyParsed_response hparsed
    obtain ⟨rfl, htag⟩ := hconfiguration hsome
    rw [heTag, Option.map_some, Option.some.injEq] at htag
    refine ⟨by rw [hfetcher]; exact h.initial, ?_, nofun⟩
    rw [if_pos (.inr hsome), hfetcher]
    refine .central answered p ⟨rfl, htag, hbody, ?_⟩
    rw [← h.initial]
    rfl

theorem Invariant.step (h : Invariant bodyOf initialSnapshot x) {l : ExchangeStep}
    (hanswers : AnswersAsAsked bodyOf x l) (hstep : step x l = some x') :
    Invariant bodyOf initialSnapshot x' := by
  cases l with
  | publish tag =>
    cases hstep
    exact ⟨h.initial, h.settled, h.message⟩
  | send =>
    simp only [ConfigExchange.step] at hstep
    split at hstep
    · cases hstep
    · cases hstep
      refine ⟨h.initial, h.settled, ?_⟩
      rintro _ ⟨rfl⟩
      rfl
  | answer response body =>
    simp only [ConfigExchange.step] at hstep
    split at hstep
    · next request hmessage =>
      cases hstep
      refine ⟨h.initial, h.settled, ?_⟩
      rintro _ ⟨rfl⟩
      -- Nothing was received since the request was sent: it names the tag the fetcher has now.
      obtain rfl : request = buildHttpRequest x.workLoop.fetcher.eTag := h.message _ hmessage
      exact hanswers _ hmessage
    · cases hstep
  | receive waiting =>
    simp only [ConfigExchange.step] at hstep
    split at hstep
    · next r body answered hmessage =>
      obtain ⟨workLoop, hloop, rfl⟩ := Option.map_eq_some_iff.mp hstep
      exact h.receive hmessage hloop
    · cases hstep
  | fail outcome waiting =>
    simp only [ConfigExchange.step] at hstep
    split at hstep
    · next hfails =>
      -- A request that fails brings nothing that could be read.
      obtain ⟨workLoop, hloop, rfl⟩ := Option.map_eq_some_iff.mp hstep
      have hfetcher := workLoop_step_fetcher hloop
      have hparsed : completelyParsed outcome = none := by
        cases outcome with
        | response r body => cases hfails.2
        | _ => rfl
      rw [hparsed] at hfetcher
      exact ⟨by rw [hfetcher]; exact h.initial, by rw [hfetcher]; exact h.settled, nofun⟩
    · cases hstep

/-- Along every run in which the server answers as it is asked, whatever is lost and whenever its
    configuration changes. -/
theorem agrees {server : String} {ls : List ExchangeStep}
    (hanswers : (system initialSnapshot).Along (AnswersAsAsked bodyOf)
      (start initialSnapshot server) ls) :
    (system initialSnapshot).Always (Agrees bodyOf initialSnapshot)
      (start initialSnapshot server) ls := by
  have hstart : Invariant bodyOf initialSnapshot (start initialSnapshot server) :=
    ⟨rfl, .initial rfl rfl, nofun⟩
  have hinvariant : (system initialSnapshot).Always (Invariant bodyOf initialSnapshot)
      (start initialSnapshot server) ls :=
    LTS.System.always_of_along (fun _ _ _ h hl hstep => h.step hl hstep) hstart hanswers
  refine hinvariant.mono fun x h => ⟨h.settled, fun request hmessage => ?_⟩
  obtain rfl : request = buildHttpRequest x.workLoop.fetcher.eTag := h.message _ hmessage
  rw [← h.settled.tag_eq]
  cases x.workLoop.fetcher.eTag <;> rfl

end

section

attribute [local instance] InvariantCulture.ascii JsonConvert.captureHeadersOff

/-- A configuration that arrives when the server has another one already, and is asked about
    then. -/
theorem agrees_changed :
    (system .defaults).Always
      (Agrees (fun _ => "\x7b\"capture_headers\":\"false\"\x7d") .defaults)
      (start .defaults "\"a\"")
      [.send,
        .answer ⟨200, "OK", none, some ⟨false, "\"a\""⟩⟩
          "\x7b\"capture_headers\":\"false\"\x7d",
        .publish "\"b\"", .receive waitingFromStart, .send] := by
  refine agrees ?_
  intro x hsend
  cases hsend
  refine ⟨trivial, fun x hanswer => ⟨fun request _ => ⟨fun hcode => ?_, fun _ => ⟨rfl, rfl⟩⟩, ?_⟩⟩
  · exact absurd hcode (by decide)
  · -- The server answers only once.
    exact fun _ _ => ⟨trivial, fun _ _ => ⟨trivial, fun _ _ => ⟨trivial, trivial⟩⟩⟩

end

end ConfigExchange

end ApmAgent
