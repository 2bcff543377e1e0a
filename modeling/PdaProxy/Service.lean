import PdaProxy.Decryption
import PdaProxy.Egress

/-! The closure that serves one HTTP request: it rewrites the URI, asks for a bearer token,
and runs the two handlers around the request to the node. What it does for calls that
neither handler intercepts is what the name of a proxy promises. -/
namespace PdaProxy
open PdaProxy.Semantics.Serialization PdaProxy.Semantics.Outcome PdaProxy.Semantics.Transition

variable {Proof Encoded Body : Type}

/-- A request as it comes in. Not every target of a request has a path and query. -/
structure ClientRequest (Body : Type) where
  method : String
  pathAndQuery : Option String
  headers : List (String × String)
  body : Except String Body

/-- Where requests go. `parseUri` gives the path and query of a string that is a URI. -/
structure Upstream where
  unsafeHttp : Bool
  daNodeSocket : String
  parseUri : String → Option String

/-- The requests sent to the node for a request, and the response to it. -/
structure Exchange (Body : Type) where
  forwarded : List (Request Body)
  response : Response Body

def Upstream.uriString (node : Upstream) (pathAndQuery : Option String) : String :=
  (if node.unsafeHttp then "http" else "https") ++ "://" ++ node.daNodeSocket ++ pathAndQuery.getD "/"

/-- Unwrapping the parsed URI panics where the string is none. -/
def rewriteUri (node : Upstream) (req : ClientRequest Body) : Option (IncomingRequest Body) :=
  (node.parseUri (node.uriString req.pathAndQuery)).map fun pathAndQuery =>
    ⟨⟨req.method,pathAndQuery,req.headers⟩,req.body⟩

/-- A header value is text if all of it is visible ASCII or tabs. -/
def headerText (value : String) : Option String :=
  if value.toList.all fun c => c.toNat = 9 || (32 ≤ c.toNat && c.toNat < 127) then some value else none

def hasBearer (headers : List (String × String)) : Bool :=
  match (headers.find? fun header => header.1 == "authorization").bind fun header => headerText header.2 with
  | none => false
  | some auth => "Bearer ".toList.isPrefixOf auth.toList

section
variable (deps : Dependencies Proof Encoded Body)

def pendingResponse : Response Body where
  parts := ⟨202,[]⟩
  body := deps.textBody "\x7b \"id\": 1, \"jsonrpc\": \"2.0\", \"status\": \"[pda-proxy] Verifiable encryption processing... Call back for result\" \x7d"

def internalErrorResponse (error : String) : Response Body where
  parts := ⟨500,[]⟩
  body := deps.toVec (internalErrorJson error)

def IncomingRequest.requestMethod (req : IncomingRequest Body) : String :=
  match req.json deps with
  | .error _ => ""
  | .ok bodyJson => PdaProxy.requestMethod bodyJson

def returned (config : Config) (setups : Nat → Except PdaRunnerError SP1ProofSetup) (requestMethod : String)
    (answer : Except String (IncomingResponse Body)) : Option (Response Body) :=
  match answer with
  | .error e => some (internalErrorResponse deps ("DA Client: " ++ e))
  | .ok resp =>
    match (outboundHandler deps config setups resp requestMethod).run with
    | none => none
    | some (.error e) => some (internalErrorResponse deps ("Outbound Handler: " ++ e))
    | some (.ok response) => some response

/-- One request from end to end, where `inbound` is what `inbound_handler` returns and
`answer` what comes of the request to the node. There is none if something panics. -/
def serve (node : Upstream) (config : Config) (setups : Nat → Except PdaRunnerError SP1ProofSetup)
    (inbound : IncomingRequest Body → InboundResult Body) (answer : Except String (IncomingResponse Body))
    (req : ClientRequest Body) : Option (Exchange Body) :=
  match rewriteUri node req with
  | none => none
  | some plaintextReq =>
    if hasBearer plaintextReq.parts.headers then
      match inbound plaintextReq with
      | .error e => some ⟨[],internalErrorResponse deps e⟩
      | .ok none => some ⟨[],pendingResponse deps⟩
      | .ok (some wrappedReq) =>
        (returned deps config setups (plaintextReq.requestMethod deps) answer).map fun response => ⟨[wrappedReq],response⟩
    else some ⟨[],badAuthResponse deps⟩

def SameBody (body other : Body) : Prop :=
  other = body ∨ ∃ json, deps.fromSlice body = .ok json ∧ deps.fromSlice other = .ok json

/-- One request goes out that is the client's, and the response is the node's. -/
structure Transparent (req : ClientRequest Body) (bodyBytes : Body) (resp : IncomingResponse Body) (respBytes : Body)
    (exchange : Exchange Body) : Prop where
  request : ∃ forwarded, exchange.forwarded = [forwarded] ∧ forwarded.parts.method = req.method ∧
    some forwarded.parts.pathAndQuery = req.pathAndQuery ∧
    withoutContentLength forwarded.parts.headers = withoutContentLength req.headers ∧
    SameBody deps bodyBytes forwarded.body
  status : exchange.response.parts.status = resp.parts.status
  headers : withoutContentLength exchange.response.parts.headers = withoutContentLength resp.parts.headers
  body : SameBody deps respBytes exchange.response.body

def interceptedMethods : List String := ["blob.Submit","blob.Get","blob.GetAll"]

end

variable {deps : Dependencies Proof Encoded Body} {config : Config}
  {setups : Nat → Except PdaRunnerError SP1ProofSetup}

theorem inboundHandler_other {req : IncomingRequest Body} {bodyBytes : Body} (received : req.body = .ok bodyBytes)
    (other : ∀ bodyJson, deps.fromSlice bodyBytes = .ok bodyJson → methodOf bodyJson ≠ some "blob.Submit") :
    inboundHandler deps req = .done ((deps.fromSlice bodyBytes).map fun bodyJson => some (forward deps req bodyJson)) := by
  unfold inboundHandler
  rw [received]
  dsimp only
  split
  next e malformed =>
    rw [malformed]
    rfl
  next bodyJson parsed =>
    rw [parsed]
    split
    next method => exact absurd method (other bodyJson parsed)
    next => rfl

theorem inboundHandler_origin {req : IncomingRequest Body} {submission : Submission Body}
    (waits : inboundHandler deps req = .encrypt submission) : submission.origin = req := by
  have sound : (inboundHandler deps req).Sound deps ([] : List (Answered Proof)) req := inboundHandler_sound req
  rw [waits] at sound
  exact sound.1

/-- A request that needs no encryption never waits, so what it is served is what the handler
returns at once. -/
def immediateAnswers (deps : Dependencies Proof Encoded Body) : Assertions Proof Encoded Body where
  shared _ _ _ := True
  request _ submission _ := ∀ direct, inboundHandler deps submission.origin ≠ .done direct
  task _ _ _ := True
  message _ _ := True
  served _ req result := ∀ direct, inboundHandler deps req = .done direct → result = direct

theorem immediateAnswers_stable :
    (immediateAnswers deps).Stable deps (fun _ _ => True) (fun _ => True) where
  shared_grows _ _ _ _ := trivial
  request_grows _ _ waits := waits
  task_grows _ _ _ := trivial
  message_grows _ _ _ := trivial
  served_grows _ ended := ended
  request_message _ := trivial
  task_message _ := trivial
  message_task _ := trivial
  receive {s req} _ _ _ := by
    constructor
    · intro submission waits direct ended
      rw [inboundHandler_origin waits,waits] at ended
      cases ended
    · intro result ended direct same
      exact Inbound.done.inj (ended.symm.trans same)
  call _ _ _ _ waits _ := ⟨trivial,waits⟩
  answer _ _ _ _ waits _ := by
    refine ⟨trivial,?_,fun response _ direct same => absurd same (waits direct)⟩
    intro next resumed direct
    rw [(resume_next resumed).2]
    exact waits direct
  work _ _ _ _ _ _ := ⟨trivial,fun _ _ => trivial⟩
  restart _ _ _ _ _ := ⟨trivial,fun _ _ => trivial⟩

theorem served_immediate {start : Config} {s : State Proof Encoded Body}
    (run : Reaches (State.step deps) Free (State.initial start) s) {req : IncomingRequest Body}
    {result direct : InboundResult Body} (served : (req,result) ∈ s.served)
    (ended : inboundHandler deps req = .done direct) : result = direct := by
  have holds := Assertions.holds_reaches immediateAnswers_stable (run.weaken fun _ _ _ => trivial)
    (fun _ _ => trivial) trivial
  exact holds.served _ served direct ended

theorem tryMutateResponse_other {key : Block KEY_LEN} {requestMethod : String} {bodyJson : Json}
    (get : requestMethod ≠ "blob.Get") (getAll : requestMethod ≠ "blob.GetAll") :
    tryMutateResponse deps key setups requestMethod bodyJson = pure bodyJson ∨
      ∃ e, tryMutateResponse deps key setups requestMethod bodyJson = throw e := by
  unfold tryMutateResponse
  split
  next => exact .inr ⟨_,rfl⟩
  next result found =>
    split
    next => exact absurd rfl get
    next => exact absurd rfl getAll
    next => exact .inl rfl

theorem tryMutateResponse_unchanged {key : Block KEY_LEN} {requestMethod : String} {bodyJson mutatedJson : Json}
    (other : ¬ (requestMethod = "blob.Get" ∨ requestMethod = "blob.GetAll"))
    (rewritten : tryMutateResponse deps key setups requestMethod bodyJson = pure mutatedJson) :
    mutatedJson = bodyJson := by
  obtain ⟨get,getAll⟩ := not_or.mp other
  rcases @tryMutateResponse_other Proof Encoded Body deps setups key _ bodyJson get getAll with unchanged | ⟨e,failed⟩
  · exact pure_inj (rewritten.symm.trans unchanged)
  · exact absurd (rewritten.symm.trans failed) (pure_ne_throw _ _)

theorem tryMutateResponse_printed {key : Block KEY_LEN} {requestMethod : String} {bodyBytes : Body}
    {bodyJson mutatedJson : Json} (parsed : deps.fromSlice bodyBytes = .ok bodyJson)
    (rewritten : tryMutateResponse deps key setups requestMethod bodyJson = pure mutatedJson) :
    deps.Printed mutatedJson := by
  by_cases asked : requestMethod = "blob.Get" ∨ requestMethod = "blob.GetAll"
  · obtain ⟨result,mutated,_,rfl,related⟩ := tryMutateResponse_success asked rewritten
    cases related with
    | single _ _ _ decrypted =>
      obtain ⟨blob,_,_,data,_,_,_,_,rfl⟩ := decrypted
      exact .blob _ _ { blob with data } parsed
    | each values _ _ decrypted =>
      obtain ⟨blobs,rfl⟩ := decrypted_blobs decrypted
      exact .blobs _ _ blobs parsed
  · rw [tryMutateResponse_unchanged asked rewritten]
    exact .parsed _ _ parsed

theorem outboundHandler_other {requestMethod : String} {resp : IncomingResponse Body} {respBytes : Body} {json : Json}
    (inverse : deps.ReadsPrinted)
    (get : requestMethod ≠ "blob.Get") (getAll : requestMethod ≠ "blob.GetAll") (authorized : resp.parts.status ≠ 401)
    (collected : resp.body = .ok respBytes) (parsed : deps.fromSlice respBytes = .ok json) :
    ∃ response, outboundHandler deps config setups resp requestMethod = pure response ∧
      response.parts.status = resp.parts.status ∧
      withoutContentLength response.parts.headers = withoutContentLength resp.parts.headers ∧
      SameBody deps respBytes response.body := by
  have mutated := @tryMutateResponse_other Proof Encoded Body deps setups config.encryptionKey _ json get getAll
  rcases mutated with unchanged | ⟨e,failed⟩
  · exact ⟨_,outboundHandler_mutated authorized collected parsed unchanged,rfl,withoutContentLength_idempotent _,
      .inr ⟨json,parsed,inverse json (.parsed _ _ parsed)⟩⟩
  · exact ⟨_,outboundHandler_unchanged authorized collected parsed failed,rfl,rfl,.inl rfl⟩

theorem outboundHandler_malformed {requestMethod : String} {resp : IncomingResponse Body} {respBytes : Body} {e : String}
    (authorized : resp.parts.status ≠ 401) (collected : resp.body = .ok respBytes)
    (malformed : deps.fromSlice respBytes = .error e) :
    outboundHandler deps config setups resp requestMethod = throw e := by
  simp only [outboundHandler,collected,liftM_ok,pure_bind,if_neg authorized,malformed]
  rfl

section
variable {node : Upstream} {req : ClientRequest Body} {bodyBytes respBytes : Body} {resp : IncomingResponse Body}

/-- A request whose target is still the same after the URI is rewritten. -/
def KeepsTarget (node : Upstream) (req : ClientRequest Body) : Prop :=
  ∃ target, req.pathAndQuery = some target ∧ node.parseUri (node.uriString req.pathAndQuery) = some target

def IsJson (deps : Dependencies Proof Encoded Body) (body : Body) : Prop := ∃ json, deps.fromSlice body = .ok json

def NotIntercepted (deps : Dependencies Proof Encoded Body) (bodyBytes : Body) : Prop :=
  ∀ bodyJson, deps.fromSlice bodyBytes = .ok bodyJson → ∀ object ∈ requestObjects bodyJson,
    ∀ method ∈ interceptedMethods, methodOf object ≠ some method

theorem NotIntercepted.single (other : NotIntercepted deps bodyBytes) {bodyJson : Json}
    (parsed : deps.fromSlice bodyBytes = .ok bodyJson) {method : String} (listed : method ∈ interceptedMethods) :
    methodOf bodyJson ≠ some method := by
  intro found
  refine other bodyJson parsed bodyJson ?_ method listed found
  rw [requestObjects_of_method found]
  exact List.mem_singleton_self bodyJson

theorem requestMethod_ne {bodyJson : Json} {method : String} (nonempty : method ≠ "")
    (other : methodOf bodyJson ≠ some method) : requestMethod bodyJson ≠ method := by
  unfold requestMethod
  cases found : methodOf bodyJson with
  | none => exact Ne.symm nonempty
  | some name =>
    intro same
    exact other (found.trans (congrArg some same))

theorem internalErrorResponse_differs (inverse : deps.ReadsPrinted) {e message : String}
    (malformed : deps.fromSlice respBytes = .error e) :
    ¬ SameBody deps respBytes (internalErrorResponse deps message).body := by
  intro same
  rcases same with identical | ⟨json,parsed,_⟩
  · have printed := inverse _ (.internalError message)
    change deps.toVec (internalErrorJson message) = respBytes at identical
    rw [identical,malformed] at printed
    cases printed
  · rw [malformed] at parsed
    cases parsed

section
variable {inbound : IncomingRequest Body → InboundResult Body} {answer : Except String (IncomingResponse Body)}
  {pathAndQuery : String}

theorem serve_other
    (immediate : ∀ incoming result, inboundHandler deps incoming = .done result → inbound incoming = result)
    (bearer : hasBearer req.headers = true) (received : req.body = .ok bodyBytes) (other : NotIntercepted deps bodyBytes)
    (rewritten : node.parseUri (node.uriString req.pathAndQuery) = some pathAndQuery) :
    serve deps node config setups inbound answer req =
      match deps.fromSlice bodyBytes with
      | .error e => some ⟨[],internalErrorResponse deps e⟩
      | .ok bodyJson => (returned deps config setups (requestMethod bodyJson) answer).map fun response =>
        ⟨[forward deps ⟨⟨req.method,pathAndQuery,req.headers⟩,req.body⟩ bodyJson],response⟩ := by
  have handled := immediate ⟨⟨req.method,pathAndQuery,req.headers⟩,req.body⟩ _
    (inboundHandler_other received fun bodyJson parsed => other.single parsed (by simp [interceptedMethods]))
  simp only [serve,rewriteUri,rewritten,Option.map_some,bearer,if_true,handled]
  cases parsed : deps.fromSlice bodyBytes with
  | error e => rfl
  | ok bodyJson => simp only [Except.map,IncomingRequest.requestMethod,IncomingRequest.json,received,parsed]

theorem returned_other (inverse : deps.ReadsPrinted)
    (other : NotIntercepted deps bodyBytes) {bodyJson : Json} (parsed : deps.fromSlice bodyBytes = .ok bodyJson)
    (authorized : resp.parts.status ≠ 401) (collected : resp.body = .ok respBytes) :
    ∃ response, returned deps config setups (requestMethod bodyJson) (.ok resp) = some response ∧
      ((response.parts.status = resp.parts.status ∧
        withoutContentLength response.parts.headers = withoutContentLength resp.parts.headers ∧
        SameBody deps respBytes response.body) ↔ IsJson deps respBytes) := by
  have get := requestMethod_ne (by decide) (other.single parsed (by decide : "blob.Get" ∈ interceptedMethods))
  have getAll := requestMethod_ne (by decide) (other.single parsed (by decide : "blob.GetAll" ∈ interceptedMethods))
  cases read : deps.fromSlice respBytes with
  | error e =>
    have failed := @outboundHandler_malformed Proof Encoded Body deps config setups (requestMethod bodyJson) resp respBytes e
      authorized collected read
    refine ⟨internalErrorResponse deps ("Outbound Handler: " ++ e),by rw [returned,failed]; rfl,?_⟩
    apply iff_of_false
    · exact fun same => internalErrorResponse_differs inverse read same.2.2
    · intro json
      rw [IsJson,read] at json
      exact nomatch json
  | ok json =>
    obtain ⟨response,answered,same⟩ := @outboundHandler_other Proof Encoded Body deps config setups _ resp respBytes json
      inverse get getAll authorized collected read
    exact ⟨response,by rw [returned,answered]; rfl,iff_of_true same ⟨json,read⟩⟩

end

/-- A request that is not intercepted and its response pass the proxy unchanged if and only if
the target survives the new URI and both bodies are JSON. -/
theorem transparent_iff (deps : Dependencies Proof Encoded Body) (node : Upstream) (config : Config)
    (setups : Nat → Except PdaRunnerError SP1ProofSetup) (inbound : IncomingRequest Body → InboundResult Body)
    (req : ClientRequest Body) (resp : IncomingResponse Body) (bodyBytes respBytes : Body)
    (immediate : ∀ incoming result, inboundHandler deps incoming = .done result → inbound incoming = result)
    (inverse : deps.ReadsPrinted) (bearer : hasBearer req.headers = true)
    (received : req.body = .ok bodyBytes) (other : NotIntercepted deps bodyBytes) (authorized : resp.parts.status ≠ 401)
    (collected : resp.body = .ok respBytes) :
    (∃ exchange, serve deps node config setups inbound (.ok resp) req = some exchange ∧
      Transparent deps req bodyBytes resp respBytes exchange) ↔
      KeepsTarget node req ∧ IsJson deps bodyBytes ∧ IsJson deps respBytes := by
  cases rewritten : node.parseUri (node.uriString req.pathAndQuery) with
  | none =>
    have panics : serve deps node config setups inbound (.ok resp) req = none := by
      simp only [serve,rewriteUri,rewritten,Option.map_none]
    apply iff_of_false
    · simp [panics]
    · simp [KeepsTarget,rewritten]
  | some pathAndQuery =>
    rw [serve_other immediate bearer received other rewritten]
    cases parsed : deps.fromSlice bodyBytes with
    | error e =>
      apply iff_of_false
      · intro passed
        obtain ⟨exchange,same,transparent⟩ := passed
        cases same
        obtain ⟨forwarded,sent,_⟩ := transparent.request
        cases sent
      · simp [IsJson,parsed]
    | ok bodyJson =>
      obtain ⟨response,made,same⟩ := @returned_other Proof Encoded Body deps config setups bodyBytes respBytes resp inverse
        other bodyJson parsed authorized collected
      have json : IsJson deps bodyBytes := ⟨bodyJson,parsed⟩
      have target : KeepsTarget node req ↔ some pathAndQuery = req.pathAndQuery := by
        simp [KeepsTarget,rewritten,eq_comm]
      rw [target,and_iff_right json,← same]
      dsimp only
      rw [made,Option.map_some]
      constructor
      · intro passed
        obtain ⟨exchange,made,transparent⟩ := passed
        cases made
        obtain ⟨forwarded,sent,_,kept,_⟩ := transparent.request
        cases sent
        exact ⟨kept,transparent.status,transparent.headers,transparent.body⟩
      · intro kept
        obtain ⟨kept,status,headers,body⟩ := kept
        exact ⟨_,rfl,⟨_,rfl,rfl,kept,withoutContentLength_idempotent _,
          .inr ⟨bodyJson,parsed,inverse bodyJson (.parsed _ _ parsed)⟩⟩,
          status,headers,body⟩

end

namespace Tabulated

/-- Bodies that are JSON or any other text. -/
def orText (deps : Dependencies Bytes (JobStatus Bytes) Json) : Dependencies Bytes (JobStatus Bytes) (Json ⊕ String) :=
  { deps with
    fromSlice := Sum.elim .ok fun _ => .error "expected value at line 1 column 1"
    toVec := .inl
    textBody := .inr }

def withText : Dependencies Bytes (JobStatus Bytes) (Json ⊕ String) := orText dependencies

def node : Upstream :=
  ⟨false,"127.0.0.1:26658",fun uri => if uri = "https://127.0.0.1:26658/" then some "/" else none⟩

def bearer : List (String × String) := [("authorization","Bearer token"),("content-length","2")]

/-- What `inbound_handler` returns where it has nothing to wait for. -/
def inboundAtOnce (req : IncomingRequest (Json ⊕ String)) : InboundResult (Json ⊕ String) :=
  match inboundHandler withText req with
  | .done result => result
  | .encrypt _ => .ok none

theorem inboundAtOnce_immediate (incoming : IncomingRequest (Json ⊕ String)) (result : InboundResult (Json ⊕ String))
    (ended : inboundHandler withText incoming = .done result) : inboundAtOnce incoming = result := by
  rw [inboundAtOnce,ended]

theorem withText_inverse : withText.ReadsPrinted := fun _ _ => rfl

def requestWith (body : Json ⊕ String) : ClientRequest (Json ⊕ String) := ⟨"POST",some "/",bearer,.ok body⟩

def responseWith (body : Json ⊕ String) : IncomingResponse (Json ⊕ String) := ⟨⟨200,[]⟩,.ok body⟩

def headRequest : Json := .object [("id",.number (.posInt 7)),("method",.string "header.LocalHead")]

theorem headRequest_other : NotIntercepted withText (.inl headRequest) := by
  intro bodyJson parsed object listed
  cases parsed
  obtain rfl := List.mem_singleton.mp listed
  decide

end Tabulated

theorem transparent_localHead :
    (∃ exchange, serve Tabulated.withText Tabulated.node Tabulated.localConfig (fun _ => Tabulated.ready)
        Tabulated.inboundAtOnce (.ok (Tabulated.responseWith (.inl (Tabulated.answer .null))))
        (Tabulated.requestWith (.inl Tabulated.headRequest)) = some exchange ∧
      Transparent Tabulated.withText (Tabulated.requestWith (.inl Tabulated.headRequest)) (.inl Tabulated.headRequest)
        (Tabulated.responseWith (.inl (Tabulated.answer .null))) (.inl (Tabulated.answer .null)) exchange) ↔
      KeepsTarget Tabulated.node (Tabulated.requestWith (.inl Tabulated.headRequest)) ∧
        IsJson Tabulated.withText (.inl Tabulated.headRequest) ∧ IsJson Tabulated.withText (.inl (Tabulated.answer .null)) :=
  transparent_iff Tabulated.withText Tabulated.node Tabulated.localConfig (fun _ => Tabulated.ready)
    Tabulated.inboundAtOnce _ _ _ _ Tabulated.inboundAtOnce_immediate Tabulated.withText_inverse (by decide) rfl
    Tabulated.headRequest_other (by decide) rfl

/-- A request with an empty body is not forwarded, and an error page of the node is replaced. -/
theorem text_not_transparent :
    NotIntercepted Tabulated.withText (.inr "") ∧
    (¬ ∃ exchange, serve Tabulated.withText Tabulated.node Tabulated.localConfig (fun _ => Tabulated.ready)
        Tabulated.inboundAtOnce (.ok (Tabulated.responseWith (.inl (Tabulated.answer .null))))
        (Tabulated.requestWith (.inr "")) = some exchange ∧
      Transparent Tabulated.withText (Tabulated.requestWith (.inr "")) (.inr "")
        (Tabulated.responseWith (.inl (Tabulated.answer .null))) (.inl (Tabulated.answer .null)) exchange) ∧
    ¬ ∃ exchange, serve Tabulated.withText Tabulated.node Tabulated.localConfig (fun _ => Tabulated.ready)
        Tabulated.inboundAtOnce (.ok (Tabulated.responseWith (.inr "<html>")))
        (Tabulated.requestWith (.inl Tabulated.headRequest)) = some exchange ∧
      Transparent Tabulated.withText (Tabulated.requestWith (.inl Tabulated.headRequest)) (.inl Tabulated.headRequest)
        (Tabulated.responseWith (.inr "<html>")) (.inr "<html>") exchange := by
  refine ⟨?_,?_,?_⟩
  · intro bodyJson parsed
    cases parsed
  · intro passed
    obtain ⟨exchange,made,transparent⟩ := passed
    cases made
    obtain ⟨forwarded,sent,_⟩ := transparent.request
    cases sent
  · intro passed
    obtain ⟨exchange,made,transparent⟩ := passed
    cases made
    cases transparent.status

end PdaProxy
