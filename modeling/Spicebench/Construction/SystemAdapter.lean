/-
This file embeds the line-delimited stdio transport of the system adapter protocol: the client with
calls that may be dropped, the server loop, and the two pipes between them.
-/

import Spicebench.Library.Framing
import Spicebench.Library.Machine

namespace Spicebench.SystemAdapter

open Library

variable {State Params Result : Type}

def lineFeed : UInt8 := 10

def encode (text : String) : List UInt8 := text.toByteArray.data.toList

/-- A line that is not valid UTF-8 cannot be read into a string. -/
def decode (bytes : List UInt8) : Option String := String.fromUTF8? ⟨bytes.toArray⟩

/-- These are the white space characters of Unicode. -/
def isWhitespace (char : Char) : Bool :=
  (9 ≤ char.val && char.val ≤ 13) || char.val == 0x20 || char.val == 0x85 || char.val == 0xA0 ||
    char.val == 0x1680 || (0x2000 ≤ char.val && char.val ≤ 0x200A) || char.val == 0x2028 ||
    char.val == 0x2029 || char.val == 0x202F || char.val == 0x205F || char.val == 0x3000

def trimEnd (text : String) : String :=
  String.ofList (text.toList.reverse.dropWhile isWhitespace).reverse

def trim (text : String) : String :=
  String.ofList ((text.toList.dropWhile isWhitespace).reverse.dropWhile isWhitespace).reverse

/-- The fields of a request that the server looks at; an id that is no number never matches a call. -/
structure Request (Params : Type) where
  id : Option Nat
  method : Option String
  params : Option Params
  deriving DecidableEq

inductive Answer (Result : Type) where
  | result (result : Result)
  | error (code : Int) (message : String)
  deriving DecidableEq

structure Response (Result : Type) where
  id : Option Nat
  answer : Answer Result
  deriving DecidableEq

/-- These are the calls that a client can make. -/
inductive Method where
  | setup
  | activate
  | teardown
  | metrics
  | createStagingTable
  | rpcMethods
  deriving DecidableEq, Repr

def Method.name : Method → String
  | .setup => "setup"
  | .activate => "activate"
  | .teardown => "teardown"
  | .metrics => "metrics"
  | .createStagingTable => "create_staging_table"
  | .rpcMethods => "rpc.methods"

/-- The JSON library writes requests and responses on one line, and reads them back. -/
structure Codec (Params Result : Type) where
  requestText : Nat → Method → Params → String
  parseRequest : String → Except String (Request Params)
  responseText : Response Result → String
  parseResponse : String → Except String (Response Result)

def parseError : Int := -32700
def invalidRequest : Int := -32600
def methodNotFound : Int := -32601
def invalidParams : Int := -32602
def internalError : Int := -32603

/-- `decodes` reads the parameters of a method, and `call` runs the method of the adapter. -/
structure Handler (State Params Result : Type) where
  decodes : Method → Params → Except String Unit
  call : State → Method → Params → State × Except String Result
  rpcMethods : State → Result

namespace Handler

variable (handler : Handler State Params Result)

def parseParams (method : Method) (request : Request Params) : Except (Answer Result) Params :=
  match request.params with
  | none => .error (.error invalidParams "Missing params")
  | some params =>
      match handler.decodes method params with
      | .ok () => .ok params
      | .error message => .error (.error invalidParams ("Invalid params: " ++ message))

def handlerResponse : Except String Result → Answer Result
  | .ok result => .result result
  | .error message => .error internalError message

/-- All methods with parameters are handled alike. -/
def handleMethod (method : Method) (state : State) (request : Request Params) : State × Answer Result :=
  match handler.parseParams method request with
  | .error answer => (state, answer)
  | .ok params =>
      let (state, result) := handler.call state method params
      (state, handlerResponse result)

def handleSetup := handler.handleMethod .setup
def handleActivate := handler.handleMethod .activate
def handleTeardown := handler.handleMethod .teardown
def handleMetrics := handler.handleMethod .metrics
def handleCreateStagingTable := handler.handleMethod .createStagingTable

def handleRpcMethods (state : State) : State × Answer Result := (state, .result (handler.rpcMethods state))

def dispatch (state : State) (request : Request Params) : State × Answer Result :=
  match request.method with
  | none => (state, .error invalidRequest "Missing method")
  | some "setup" => handler.handleSetup state request
  | some "activate" => handler.handleActivate state request
  | some "teardown" => handler.handleTeardown state request
  | some "metrics" => handler.handleMetrics state request
  | some "create_staging_table" => handler.handleCreateStagingTable state request
  | some "rpc.methods" => handler.handleRpcMethods state
  | some _ => (state, .error methodNotFound "Method not found")

end Handler

/-- A call of the client has an id of its own. -/
structure Call (Params : Type) where
  id : Nat
  method : Method
  params : Params
  deriving DecidableEq

def Call.request (call : Call Params) : Request Params := ⟨some call.id, some call.method.name, some call.params⟩

/-- The bytes that a call writes. -/
def Call.line (codec : Codec Params Result) (call : Call Params) : List UInt8 :=
  encode (codec.requestText call.id call.method call.params) ++ [lineFeed]

inductive Outcome (Result : Type) where
  | answered (answer : Answer Result)
  | json (message : String)
  | io
  | closed
  deriving DecidableEq

/-- A call still has bytes to write, or it has read a part of a line. -/
inductive Place (Params : Type) where
  | idle
  | writing (call : Call Params) (rest : List UInt8)
  | reading (call : Call Params) (line : List UInt8)
  deriving DecidableEq

/-- `requests` and `responses` are the bytes in the two pipes, and `outgoing` are the bytes of a response
that the server has not written yet. `served` lists the requests that the server has answered, with the
answers, and `returned` lists the calls that have returned. -/
structure Link (State Params Result : Type) where
  nextId : Nat
  place : Place Params
  requests : List UInt8
  running : Bool
  state : State
  outgoing : List UInt8
  responses : List UInt8
  served : List (Request Params × Answer Result)
  returned : List (Call Params × Outcome Result)

def Link.new (state : State) : Link State Params Result :=
  ⟨1, .idle, [], true, state, [], [], [], []⟩

/-- The client makes a call, writes or reads some bytes, finds the pipe closed, or drops the call; the
server handles a line or writes some bytes. -/
inductive LinkAction (Params : Type) where
  | call (method : Method) (params : Params)
  | write (count : Nat)
  | serve
  | respond (count : Nat)
  | read (count : Nat)
  | close
  | drop

namespace Link

variable (codec : Codec Params Result) (handler : Handler State Params Result)

/-- The call returns. -/
def finish (link : Link State Params Result) (call : Call Params) (outcome : Outcome Result) :
    Link State Params Result :=
  { link with place := .idle, returned := link.returned ++ [(call, outcome)] }

/-- The server answers a line, and stops at one that is not valid UTF-8. -/
def handleRequest (link : Link State Params Result) (line : List UInt8) : Link State Params Result :=
  match decode line with
  | none => { link with running := false }
  | some text =>
      match codec.parseRequest (trim text) with
      | .error message => { link with
          outgoing := encode (codec.responseText ⟨none, .error parseError ("Parse error: " ++ message)⟩) ++ [lineFeed] }
      | .ok request =>
          let (state, answer) := handler.dispatch link.state request
          { link with
            state
            outgoing := encode (codec.responseText ⟨request.id, answer⟩) ++ [lineFeed]
            served := link.served ++ [(request, answer)] }

/-- The client discards a response with another id. -/
def receive (link : Link State Params Result) (call : Call Params) (line : List UInt8) :
    Link State Params Result :=
  match decode line with
  | none => link.finish call .io
  | some text =>
      match codec.parseResponse (trimEnd text) with
      | .error message => link.finish call (.json message)
      | .ok response =>
          if response.id ≠ some call.id then { link with place := .reading call [] }
          else link.finish call (.answered response.answer)

end Link

/-- One step of the client or of the server. A dropped call loses the bytes that it has read of a line,
and the bytes that it has written stay in the pipe. -/
def linkStep (codec : Codec Params Result) (handler : Handler State Params Result)
    (link : Link State Params Result) (action : LinkAction Params) : Option (Link State Params Result) :=
  match action, link.place with
  | .call method params, .idle =>
      let call := ⟨link.nextId, method, params⟩
      some { link with nextId := link.nextId + 1, place := .writing call (call.line codec) }
  | .write count, .writing call rest =>
      if 0 < count ∧ count ≤ rest.length then
        if link.running then
          some { link with
            requests := link.requests ++ rest.take count
            place := if rest.drop count = [] then .reading call [] else .writing call (rest.drop count) }
        else some (link.finish call .io)
      else none
  | .serve, _ =>
      if link.running ∧ link.outgoing = [] then
        (splitLine lineFeed link.requests).map fun pieces =>
          { link with requests := pieces.2 }.handleRequest codec handler pieces.1
      else none
  | .respond count, _ =>
      if 0 < count ∧ count ≤ link.outgoing.length then
        some { link with
          responses := link.responses ++ link.outgoing.take count
          outgoing := link.outgoing.drop count }
      else none
  | .read count, .reading call line =>
      if 0 < count ∧ count ≤ link.responses.length then
        -- No byte after the line is consumed.
        match splitLine lineFeed (link.responses.take count) with
        | none => some { link with
            responses := link.responses.drop count
            place := .reading call (line ++ link.responses.take count) }
        | some (head, _) => some ({ link with
            responses := link.responses.drop (head.length + 1) }.receive codec call (line ++ head))
      else none
  | .close, .reading call line =>
      -- At the end of the pipe a line without its delimiter is parsed as it is.
      if link.running = false ∧ link.outgoing = [] ∧ link.responses = [] then
        if line = [] then some (link.finish call .closed) else some (link.receive codec call line)
      else none
  | .drop, .writing _ _ => some { link with place := .idle }
  | .drop, .reading _ _ => some { link with place := .idle }
  | _, _ => none

theorem linkStep_serve (codec : Codec Params Result) (handler : Handler State Params Result)
    (link : Link State Params Result) : linkStep codec handler link .serve =
      if link.running ∧ link.outgoing = [] then
        (splitLine lineFeed link.requests).map fun pieces =>
          { link with requests := pieces.2 }.handleRequest codec handler pieces.1
      else none := by
  simp only [linkStep]

theorem linkStep_respond (codec : Codec Params Result) (handler : Handler State Params Result)
    (link : Link State Params Result) (count : Nat) : linkStep codec handler link (.respond count) =
      if 0 < count ∧ count ≤ link.outgoing.length then
        some { link with
          responses := link.responses ++ link.outgoing.take count
          outgoing := link.outgoing.drop count }
      else none := by
  unfold linkStep
  rfl

/-- The transport as a machine. -/
def linkMachine (codec : Codec Params Result) (handler : Handler State Params Result) :
    Machine (Link State Params Result) (LinkAction Params) where
  step := linkStep codec handler
  admits _ := True

end Spicebench.SystemAdapter
