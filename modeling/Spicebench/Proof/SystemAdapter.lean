import Spicebench.Construction.SystemAdapter
import Spicebench.Library.Decimal
import Mathlib.Data.Prod.Lex
import Mathlib.Order.WellFounded
import Mathlib.Data.List.Perm.Basic
import Mathlib.Tactic.SplitIfs

namespace Spicebench.SystemAdapter
open Library

variable {State Params Result : Type}

/-- The JSON library writes an object without a line feed, and reads it back. -/
structure Codec.Lawful (codec : Codec Params Result) (handler : Handler State Params Result) : Prop where
  requestShape : ∀ call : Call Params, ∃ middle,
    (codec.requestText call.id call.method call.params).toList = '{' :: middle ++ ['}']
  requestLine : ∀ call : Call Params, '\n' ∉ (codec.requestText call.id call.method call.params).toList
  requestParse : ∀ call : Call Params,
    codec.parseRequest (codec.requestText call.id call.method call.params) = .ok call.request
  responseShape : ∀ (call : Call Params) state, ∃ middle,
    (codec.responseText ⟨some call.id, (handler.dispatch state call.request).2⟩).toList = '{' :: middle ++ ['}']
  responseLine : ∀ (call : Call Params) state,
    '\n' ∉ (codec.responseText ⟨some call.id, (handler.dispatch state call.request).2⟩).toList
  responseParse : ∀ (call : Call Params) state,
    codec.parseResponse (codec.responseText ⟨some call.id, (handler.dispatch state call.request).2⟩) =
      .ok ⟨some call.id, (handler.dispatch state call.request).2⟩

/-- Only a line feed is encoded with the byte of a line feed. -/
theorem eq_newline_of_mem {char : Char} (member : lineFeed ∈ String.utf8EncodeChar char) : char = '\n' := by
  unfold String.utf8EncodeChar lineFeed at member
  have small : ∀ number : Nat, (10 : UInt8) = UInt8.ofNat number → number % 256 = 10 := by
    intro number same
    have value := congrArg UInt8.toNat same
    simpa using value.symm
  dsimp only at member
  split_ifs at member with one two three
  · have value := small _ (List.mem_singleton.mp member)
    apply Char.ext
    apply UInt32.toNat_inj.mp
    have ten : ('\n').val.toNat = 10 := rfl
    omega
  · simp only [List.mem_cons, List.not_mem_nil, or_false] at member
    rcases member with first | second
    · have value := small _ first
      omega
    · have value := small _ second
      omega
  · simp only [List.mem_cons, List.not_mem_nil, or_false] at member
    rcases member with first | second | third
    · have value := small _ first
      omega
    · have value := small _ second
      omega
    · have value := small _ third
      omega
  · simp only [List.mem_cons, List.not_mem_nil, or_false] at member
    rcases member with first | second | third | fourth
    · have value := small _ first
      omega
    · have value := small _ second
      omega
    · have value := small _ third
      omega
    · have value := small _ fourth
      omega

/-- The characters are encoded one after the other. -/
theorem encode_eq (text : String) : encode text = text.toList.flatMap String.utf8EncodeChar := by
  rw [encode, ← String.utf8Encode_toList, List.utf8Encode]
  simp

/-- A text without a line feed is encoded without its byte. -/
theorem lineFeed_notMem_encode {text : String} (line : '\n' ∉ text.toList) : lineFeed ∉ encode text := by
  intro member
  rw [encode_eq, List.mem_flatMap] at member
  obtain ⟨char, inside, isByte⟩ := member
  exact line (eq_newline_of_mem isByte ▸ inside)

theorem newline_notMem_of_encode {text : String} (line : lineFeed ∉ encode text) : '\n' ∉ text.toList := by
  intro member
  rw [encode_eq] at line
  exact line (List.mem_flatMap.mpr ⟨'\n', member, by decide⟩)

/-- A text takes as many bytes as its characters do together. -/
theorem sum_utf8Size (text : String) : (text.toList.map Char.utf8Size).sum = text.utf8ByteSize := by
  have size : (encode text).length = text.utf8ByteSize := rfl
  rw [← size, encode_eq, List.length_flatMap]
  simp

theorem decode_encode (text : String) : decode (encode text) = some text := by
  have same : (⟨(encode text).toArray⟩ : ByteArray) = text.toByteArray := by
    simp [encode]
  rw [decode, same, String.fromUTF8?, dif_pos text.isValidUTF8]
  rfl

/-- There is no white space behind the end of an object. -/
theorem trimEnd_closed {text : String} {front : List Char} (shape : text.toList = front ++ ['}']) :
    trimEnd text = text := by
  have closing : isWhitespace '}' = false := by decide
  have kept : (text.toList.reverse.dropWhile isWhitespace).reverse = text.toList := by
    simp [shape, closing]
  rw [trimEnd, kept, String.ofList_toList]

/-- An object has no white space around it. -/
theorem trimEnd_object {text : String} {middle : List Char} (shape : text.toList = '{' :: middle ++ ['}']) :
    trimEnd text = text := trimEnd_closed shape

theorem trim_object {text : String} {middle : List Char} (shape : text.toList = '{' :: middle ++ ['}']) :
    trim text = text := by
  have opening : isWhitespace '{' = false := by decide
  have kept : text.toList.dropWhile isWhitespace = text.toList := by
    simp [shape, opening]
  rw [trim, kept]
  exact trimEnd_object shape

/-- A call is dropped before it has written anything, or after it has written its whole line and before
it has read a part of the next response. -/
def keepsFraming [DecidableEq Params] (codec : Codec Params Result) (link : Link State Params Result) :
    LinkAction Params → Bool
  | .drop => match link.place with
      | .idle => true
      | .writing call rest => rest = call.line codec
      | .reading _ line => line = []
  | _ => true

/-- Bytes are moved and lines handled, while no call is made or dropped. -/
def LinkAction.isTransfer : LinkAction Params → Bool
  | .call _ _ => false
  | .drop => false
  | _ => true

def transferMachine (codec : Codec Params Result) (handler : Handler State Params Result) :
    Machine (Link State Params Result) (LinkAction Params) :=
  { linkMachine codec handler with admits := fun action => action.isTransfer = true }

namespace Place

/-- The call whose line is being written. -/
def owed : Place Params → List (Call Params)
  | .writing call _ => [call]
  | _ => []

def rest : Place Params → List UInt8
  | .writing _ rest => rest
  | _ => []

def line : Place Params → List UInt8
  | .reading _ line => line
  | _ => []

section Parts

variable (call : Call Params) (bytes : List UInt8)

@[simp] theorem owed_idle : (idle : Place Params).owed = [] := rfl

@[simp] theorem owed_writing : (writing call bytes).owed = [call] := rfl

@[simp] theorem owed_reading : (reading call bytes).owed = [] := rfl

@[simp] theorem rest_idle : (idle : Place Params).rest = [] := rfl

@[simp] theorem rest_writing : (writing call bytes).rest = bytes := rfl

@[simp] theorem rest_reading : (reading call bytes).rest = [] := rfl

@[simp] theorem line_idle : (idle : Place Params).line = [] := rfl

@[simp] theorem line_writing : (writing call bytes).line = [] := rfl

@[simp] theorem line_reading : (reading call bytes).line = bytes := rfl

end Parts

end Place

/-- An answered call. -/
abbrev Exchange (Params Result : Type) := Call Params × Answer Result

def requestBytes (codec : Codec Params Result) (call : Call Params) : List UInt8 :=
  encode (codec.requestText call.id call.method call.params)

def replyBytes (codec : Codec Params Result) (exchange : Exchange Params Result) : List UInt8 :=
  encode (codec.responseText ⟨some exchange.1.id, exchange.2⟩)

/-- Both pipes hold whole lines, apart from the line being written and the one being read. The replies to
`past` were consumed, those to `unread` are on their way, and the requests in `queue` are to be handled. -/
structure Framed (codec : Codec Params Result) (handler : Handler State Params Result)
    (link : Link State Params Result) (past unread : List (Exchange Params Result)) (queue : List (Call Params)) :
    Prop where
  running : link.running = true
  served : link.served = (past ++ unread).map fun exchange => (exchange.1.request, exchange.2)
  handled : ∀ entry ∈ link.served, ∃ state, entry.2 = (handler.dispatch state entry.1).2
  incoming : link.place.line ++ link.responses ++ link.outgoing =
    frame lineFeed (unread.map (replyBytes codec))
  outgoing : link.requests ++ link.place.rest =
    frame lineFeed ((queue ++ link.place.owed).map (requestBytes codec))
  whole : lineFeed ∉ link.place.line
  ids : ((past ++ unread).map (fun exchange => exchange.1.id) ++
    (queue ++ link.place.owed).map Call.id).Pairwise (· < ·)
  fresh : ∀ id ∈ (past ++ unread).map (fun exchange => exchange.1.id) ++
    (queue ++ link.place.owed).map Call.id, id < link.nextId
  unwritten : ∀ call rest, link.place = .writing call rest → rest ≠ []
  expected : ∀ call line, link.place = .reading call line → call ∈ unread.map Prod.fst ++ queue
  returned : ∀ entry ∈ link.returned, ∃ answer, entry.2 = .answered answer ∧ (entry.1, answer) ∈ past ++ unread

section Lines

variable {codec : Codec Params Result} {handler : Handler State Params Result} {link : Link State Params Result}
  {call : Call Params} {count : Nat} {line head others : List UInt8}

theorem call_line (codec : Codec Params Result) (call : Call Params) :
    call.line codec = frame lineFeed [requestBytes codec call] := by
  simp [Call.line, requestBytes]

/-- The server answers a request. -/
theorem handleRequest_requestBytes (lawful : codec.Lawful handler) (link : Link State Params Result)
    (call : Call Params) : link.handleRequest codec handler (requestBytes codec call) = { link with
      state := (handler.dispatch link.state call.request).1
      outgoing := replyBytes codec (call, (handler.dispatch link.state call.request).2) ++ [lineFeed]
      served := link.served ++ [(call.request, (handler.dispatch link.state call.request).2)] } := by
  obtain ⟨middle, shape⟩ := lawful.requestShape call
  simp only [Link.handleRequest, requestBytes, decode_encode, trim_object shape, lawful.requestParse, replyBytes]
  rfl

/-- A reply is returned to its own call and skipped by another one. -/
theorem receive_replyBytes (lawful : codec.Lawful handler) (link : Link State Params Result) (call : Call Params)
    {exchange : Exchange Params Result}
    (answering : ∃ state, exchange.2 = (handler.dispatch state exchange.1.request).2) :
    link.receive codec call (replyBytes codec exchange) =
      if exchange.1.id = call.id then link.finish call (.answered exchange.2)
      else { link with place := .reading call [] } := by
  obtain ⟨state, answer⟩ := answering
  obtain ⟨middle, shape⟩ := lawful.responseShape exchange.1 state
  have parsed := lawful.responseParse exchange.1 state
  rw [← answer] at shape parsed
  rw [Link.receive, replyBytes, decode_encode]
  simp only [trimEnd_object shape, parsed, ne_eq, Option.some.injEq, ite_not]

/-- A whole line is written at once. -/
theorem step_writeLine (running : link.running = true) (writing : link.place = .writing call (call.line codec))
    (all : (call.line codec).length = count) : (linkMachine codec handler).step link (.write count) = some { link with
      requests := link.requests ++ call.line codec
      place := .reading call [] } := by
  have positive : 0 < count := by
    rw [← all, Call.line, List.length_append]
    exact Nat.succ_pos _
  simp only [linkMachine, linkStep, writing, running, if_true]
  rw [if_pos ⟨positive, all.ge⟩, List.take_of_length_le all.le, List.drop_eq_nil_of_le all.le, if_pos rfl]

/-- The first line in the pipe is served. -/
theorem step_serveLine (lawful : codec.Lawful handler) (running : link.running = true)
    (written : link.outgoing = []) (waiting : link.requests = call.line codec ++ others) :
    (linkMachine codec handler).step link .serve = some { link with
      requests := others
      state := (handler.dispatch link.state call.request).1
      outgoing := replyBytes codec (call, (handler.dispatch link.state call.request).2) ++ [lineFeed]
      served := link.served ++ [(call.request, (handler.dispatch link.state call.request).2)] } := by
  have whole : lineFeed ∉ requestBytes codec call := lineFeed_notMem_encode (lawful.requestLine call)
  have split : splitLine lineFeed link.requests = some (requestBytes codec call, others) := by
    rw [waiting, call_line, frame_cons, frame_nil, List.append_assoc]
    exact splitLine_append whole others
  simp only [linkMachine]
  rw [linkStep_serve, if_pos ⟨running, written⟩, split, Option.map_some, handleRequest_requestBytes lawful]

/-- A response is written at once. -/
theorem step_respondLine (pending : link.outgoing = line ++ [lineFeed]) (all : line.length + 1 = count) :
    (linkMachine codec handler).step link (.respond count) = some { link with
      responses := link.responses ++ (line ++ [lineFeed])
      outgoing := [] } := by
  have size : link.outgoing.length = count := by
    rw [pending, List.length_append, List.length_singleton, all]
  simp only [linkMachine]
  rw [linkStep_respond, if_pos ⟨by omega, size.ge⟩, List.take_of_length_le size.le, List.drop_eq_nil_of_le size.le, pending]

/-- The rest of a line is read with its line feed. -/
theorem step_readLine (reading : link.place = .reading call line)
    (arrived : link.responses = head ++ lineFeed :: others) (whole : lineFeed ∉ head)
    (all : head.length + 1 = count) : (linkMachine codec handler).step link (.read count) =
      some ({ link with responses := others }.receive codec call (line ++ head)) := by
  have within : link.responses.take count = head ++ [lineFeed] := by
    rw [arrived, ← all, List.take_length_add_append, List.take_succ_cons, List.take_zero]
  have behind : link.responses.drop (head.length + 1) = others := by
    rw [arrived, List.drop_length_add_append, List.drop_succ_cons, List.drop_zero]
  have there : 0 < count ∧ count ≤ link.responses.length := by
    rw [arrived, List.length_append, List.length_cons]
    omega
  simp only [linkMachine, linkStep, reading, within, splitLine_append whole, behind]
  rw [if_pos there]

/-- A part of a line is read. -/
theorem step_readPart (reading : link.place = .reading call line) (arrived : link.responses = head ++ others)
    (whole : lineFeed ∉ head) (positive : 0 < count) (all : head.length = count) :
    (linkMachine codec handler).step link (.read count) = some { link with
      responses := others
      place := .reading call (line ++ head) } := by
  have within : link.responses.take count = head := by
    rw [arrived, ← all, List.take_left]
  have behind : link.responses.drop count = others := by
    rw [arrived, ← all, List.drop_left]
  have there : 0 < count ∧ count ≤ link.responses.length := by
    rw [arrived, List.length_append]
    omega
  simp only [linkMachine, linkStep, reading, within, splitLine_eq_none_iff.mpr whole, behind]
  rw [if_pos there]

end Lines

section Steps

variable {codec : Codec Params Result} {handler : Handler State Params Result} {link next : Link State Params Result}
  {past unread : List (Exchange Params Result)} {queue : List (Call Params)}

/-- A new call has a new id, and its whole line is to be written. -/
theorem Framed.call (framed : Framed codec handler link past unread queue) (idle : link.place = .idle)
    (method : Method) (params : Params) :
    Framed codec handler { link with
      nextId := link.nextId + 1
      place := .writing ⟨link.nextId, method, params⟩ (Call.line codec ⟨link.nextId, method, params⟩) }
      past unread queue := by
  have incoming := framed.incoming
  have outgoing := framed.outgoing
  have ids := framed.ids
  have fresh := framed.fresh
  simp only [idle, Place.line_idle, Place.rest_idle, Place.owed_idle, List.append_nil, List.nil_append] at incoming outgoing ids fresh
  refine ⟨framed.running, framed.served, framed.handled, ?_, ?_, by simp, ?_, ?_, ?_, by simp,
    framed.returned⟩
  · simpa using incoming
  · simp only [Place.rest_writing, Place.owed_writing, List.map_append, frame_append, outgoing, call_line, List.map_cons, List.map_nil]
  · simp only [Place.owed_writing, List.map_append, ← List.append_assoc] at ids fresh ⊢
    rw [List.pairwise_append]
    refine ⟨ids, by simp, ?_⟩
    intro id member other last
    obtain rfl : other = link.nextId := by simpa using last
    exact fresh id member
  · intro id member
    simp only [Place.owed_writing, List.map_append, ← List.append_assoc] at fresh member
    rcases List.mem_append.mp member with old | last
    · exact Nat.lt_succ_of_lt (fresh id old)
    · obtain rfl : id = link.nextId := by simpa using last
      exact Nat.lt_succ_self _
  · rintro call rest same
    obtain ⟨rfl, rfl⟩ := Place.writing.inj same
    simp [Call.line]

/-- The written bytes are in the pipe, and the request is queued once its line is complete. -/
theorem Framed.write (framed : Framed codec handler link past unread queue) {call : Call Params}
    {rest : List UInt8} (writing : link.place = .writing call rest) (count : Nat) :
    ∃ queue, Framed codec handler { link with
      requests := link.requests ++ rest.take count
      place := if rest.drop count = [] then .reading call [] else .writing call (rest.drop count) }
      past unread queue := by
  have incoming := framed.incoming
  have outgoing := framed.outgoing
  have ids := framed.ids
  have fresh := framed.fresh
  simp only [writing, Place.line_writing, Place.rest_writing, Place.owed_writing, List.nil_append] at incoming outgoing ids fresh
  split_ifs with complete
  · have all : rest.take count = rest := by
      rw [← List.take_append_drop count rest, complete, List.append_nil, List.take_take, min_self]
    refine ⟨queue ++ [call], framed.running, framed.served, framed.handled, incoming, ?_, by simp, ?_,
      ?_, by simp, ?_, framed.returned⟩
    · simpa [all] using outgoing
    · simpa only [Place.owed_reading, List.append_nil] using ids
    · simpa only [Place.owed_reading, List.append_nil] using fresh
    · rintro other line same
      obtain ⟨rfl, rfl⟩ := Place.reading.inj same
      simp
  · refine ⟨queue, framed.running, framed.served, framed.handled, incoming, ?_, by simp, ids, fresh,
      ?_, by simp, framed.returned⟩
    · simpa only [Place.rest_writing, Place.owed_writing, List.append_assoc, List.take_append_drop] using outgoing
    · rintro other left same
      obtain ⟨rfl, rfl⟩ := Place.writing.inj same
      exact complete

/-- The next line in the pipe is the request of the first queued call, and the reply follows the others. -/
theorem Framed.serve (lawful : codec.Lawful handler) (framed : Framed codec handler link past unread queue)
    (written : link.outgoing = []) {line others : List UInt8}
    (split : splitLine lineFeed link.requests = some (line, others)) :
    ∃ unread queue, Framed codec handler
      (Link.handleRequest codec handler { link with requests := others } line) past unread queue := by
  obtain ⟨taken, whole⟩ := splitLine_eq_some split
  have framing := framed.outgoing
  have wholes : ∀ other ∈ (queue ++ link.place.owed).map (requestBytes codec), lineFeed ∉ other := by
    intro other member
    obtain ⟨call, _, rfl⟩ := List.mem_map.mp member
    exact lineFeed_notMem_encode (lawful.requestLine call)
  rw [taken, List.append_assoc, List.cons_append] at framing
  obtain ⟨rests, lines, remains⟩ := frame_first whole wholes framing
  -- The line being written is not complete, so the first line is a queued one.
  obtain ⟨call, waiting, rfl⟩ : ∃ call waiting, queue = call :: waiting := by
    cases queue with
    | cons call waiting => exact ⟨call, waiting, rfl⟩
    | nil =>
        exfalso
        cases place : link.place with
        | idle => simp [place] at lines
        | reading call line => simp [place] at lines
        | writing call rest =>
            simp only [place, Place.owed_writing, List.nil_append, List.map_cons, List.map_nil, List.cons.injEq] at lines
            obtain ⟨_, rfl⟩ := lines
            simp only [place, Place.rest_writing, frame_nil, List.append_eq_nil_iff] at remains
            exact framed.unwritten call rest place remains.2
  simp only [List.cons_append, List.map_cons, List.cons.injEq] at lines
  obtain ⟨rfl, rfl⟩ := lines
  have incoming := framed.incoming
  rw [written, List.append_nil] at incoming
  rw [handleRequest_requestBytes lawful]
  refine ⟨unread ++ [(call, (handler.dispatch link.state call.request).2)], waiting, framed.running, ?_, ?_, ?_,
    remains, framed.whole, ?_, ?_, framed.unwritten, ?_, ?_⟩
  · simp [framed.served]
  · intro entry member
    rcases List.mem_append.mp member with old | last
    · exact framed.handled entry old
    · obtain rfl := List.mem_singleton.mp last
      exact ⟨link.state, rfl⟩
  · simp only [List.map_append, List.map_cons, List.map_nil, frame_append, incoming]
    simp
  · simpa using framed.ids
  · intro id member
    exact framed.fresh id (by simpa using member)
  · intro other line reading
    simpa using framed.expected other line reading
  · intro entry member
    obtain ⟨answer, answered, known⟩ := framed.returned entry member
    refine ⟨answer, answered, ?_⟩
    rw [← List.append_assoc]
    exact List.mem_append_left _ known

theorem Framed.respond (framed : Framed codec handler link past unread queue) (count : Nat) :
    Framed codec handler { link with
      responses := link.responses ++ link.outgoing.take count
      outgoing := link.outgoing.drop count } past unread queue where
  running := framed.running
  served := framed.served
  handled := framed.handled
  incoming := by
    have incoming := framed.incoming
    simpa only [List.append_assoc, List.take_append_drop] using incoming
  outgoing := framed.outgoing
  whole := framed.whole
  ids := framed.ids
  fresh := framed.fresh
  unwritten := framed.unwritten
  expected := framed.expected
  returned := framed.returned

/-- A part of a line is read. -/
theorem Framed.readPart (framed : Framed codec handler link past unread queue) {call : Call Params}
    {line : List UInt8} (reading : link.place = .reading call line) {count : Nat}
    (part : splitLine lineFeed (link.responses.take count) = none) :
    Framed codec handler { link with
      responses := link.responses.drop count
      place := .reading call (line ++ link.responses.take count) } past unread queue := by
  have incoming := framed.incoming
  have outgoing := framed.outgoing
  have whole := framed.whole
  have ids := framed.ids
  have fresh := framed.fresh
  simp only [reading, Place.line_reading, Place.rest_reading, Place.owed_reading] at incoming outgoing whole ids fresh
  refine ⟨framed.running, framed.served, framed.handled, ?_, outgoing, ?_, ids, fresh, by simp, ?_, framed.returned⟩
  · dsimp only [Place.line_reading]
    rw [List.append_assoc line, List.take_append_drop]
    exact incoming
  · simp only [Place.line_reading, List.mem_append, not_or]
    exact ⟨whole, splitLine_eq_none_iff.mp part⟩
  · intro other rest same
    obtain ⟨rfl, rfl⟩ := Place.reading.inj same
    exact framed.expected call line reading

/-- A complete line is the first unread reply, which is returned to its own call only. -/
theorem Framed.readLine (lawful : codec.Lawful handler) (framed : Framed codec handler link past unread queue)
    {call : Call Params} {line : List UInt8} (reading : link.place = .reading call line) {count : Nat}
    {head others : List UInt8} (split : splitLine lineFeed (link.responses.take count) = some (head, others)) :
    ∃ past unread, Framed codec handler
      (Link.receive codec { link with responses := link.responses.drop (head.length + 1) } call (line ++ head))
      past unread queue := by
  obtain ⟨taken, headWhole⟩ := splitLine_eq_some split
  have cut : link.responses = head ++ lineFeed :: link.responses.drop (head.length + 1) := by
    have first : link.responses = head ++ lineFeed :: (others ++ link.responses.drop count) := by
      calc link.responses = link.responses.take count ++ link.responses.drop count :=
            (List.take_append_drop count _).symm
        _ = head ++ lineFeed :: (others ++ link.responses.drop count) := by simp [taken]
    have later : (head ++ lineFeed :: (others ++ link.responses.drop count)).drop (head.length + 1) =
        others ++ link.responses.drop count := by
      simp [List.drop_append]
    rw [← first] at later
    rw [later]
    exact first
  have incoming := framed.incoming
  have outgoing := framed.outgoing
  have ids := framed.ids
  have fresh := framed.fresh
  have whole : lineFeed ∉ line ++ head := by
    have lineWhole := framed.whole
    rw [reading] at lineWhole
    simp only [List.mem_append, not_or]
    exact ⟨lineWhole, headWhole⟩
  have answers : ∀ exchange ∈ unread, ∃ state, exchange.2 = (handler.dispatch state exchange.1.request).2 := by
    intro exchange member
    have entry : (exchange.1.request, exchange.2) ∈ link.served := by
      rw [framed.served]
      exact List.mem_map_of_mem (List.mem_append_right past member)
    exact framed.handled _ entry
  have wholes : ∀ other ∈ unread.map (replyBytes codec), lineFeed ∉ other := by
    intro other member
    obtain ⟨⟨owner, answer⟩, inside, rfl⟩ := List.mem_map.mp member
    obtain ⟨state, answering⟩ := answers _ inside
    have line := lawful.responseLine owner state
    rw [← answering] at line
    exact lineFeed_notMem_encode line
  simp only [reading, Place.line_reading, Place.rest_reading, Place.owed_reading] at incoming outgoing ids fresh
  rw [cut] at incoming
  have first : (line ++ head) ++ lineFeed :: (link.responses.drop (head.length + 1) ++ link.outgoing) =
      frame lineFeed (unread.map (replyBytes codec)) := by
    simpa using incoming
  obtain ⟨rests, lines, remains⟩ := frame_first whole wholes first
  obtain ⟨⟨owner, answer⟩, later, rfl⟩ : ∃ exchange later, unread = exchange :: later := by
    cases unread with
    | nil => simp at lines
    | cons exchange later => exact ⟨exchange, later, rfl⟩
  simp only [List.map_cons, List.cons.injEq] at lines
  obtain ⟨same, rfl⟩ := lines
  have served : link.served =
      ((past ++ [(owner, answer)]) ++ later).map fun exchange => (exchange.1.request, exchange.2) := by
    simpa using framed.served
  have nextIds : (((past ++ [(owner, answer)]) ++ later).map (fun exchange => exchange.1.id) ++
      (queue ++ []).map Call.id).Pairwise (· < ·) := by
    simpa using ids
  have nextFresh : ∀ id ∈ ((past ++ [(owner, answer)]) ++ later).map (fun exchange => exchange.1.id) ++
      (queue ++ []).map Call.id, id < link.nextId := by
    simpa using fresh
  have returned : ∀ entry ∈ link.returned, ∃ answered, entry.2 = .answered answered ∧
      (entry.1, answered) ∈ (past ++ [(owner, answer)]) ++ later := by
    intro entry member
    obtain ⟨answered, isAnswer, known⟩ := framed.returned entry member
    exact ⟨answered, isAnswer, by simpa using known⟩
  have waiting := framed.expected call line reading
  refine ⟨past ++ [(owner, answer)], later, ?_⟩
  rw [← same, receive_replyBytes lawful _ _ (answers _ List.mem_cons_self)]
  split_ifs with matching
  · -- The ids of calls differ, so the reply is the one to this call.
    have after : ∀ id ∈ later.map (fun exchange => exchange.1.id) ++ queue.map Call.id, owner.id < id := by
      have line : (past.map (fun exchange => exchange.1.id) ++ owner.id ::
          (later.map (fun exchange => exchange.1.id) ++ queue.map Call.id)).Pairwise (· < ·) := by
        simpa using ids
      exact (List.pairwise_cons.mp (List.pairwise_append.mp line).2.1).1
    have mine : owner = call := by
      by_contra different
      have member : call.id ∈ later.map (fun exchange => exchange.1.id) ++ queue.map Call.id := by
        simp only [List.map_cons, List.cons_append, List.mem_cons, Ne.symm different, false_or] at waiting
        rcases List.mem_append.mp waiting with unread | queued
        · obtain ⟨exchange, inside, rfl⟩ := List.mem_map.mp unread
          exact List.mem_append_left _ (List.mem_map_of_mem inside)
        · exact List.mem_append_right _ (List.mem_map_of_mem queued)
      have order := after call.id member
      exact absurd matching order.ne
    subst mine
    refine ⟨framed.running, served, framed.handled, by simpa [Link.finish] using remains, outgoing,
      by simp [Link.finish], nextIds, nextFresh, by simp [Link.finish], by simp [Link.finish], ?_⟩
    intro entry member
    rcases List.mem_append.mp member with old | last
    · exact returned entry old
    · obtain rfl := List.mem_singleton.mp last
      exact ⟨answer, rfl, by simp⟩
  · refine ⟨framed.running, served, framed.handled, by simpa using remains, outgoing, by simp,
      nextIds, nextFresh, by simp, ?_, returned⟩
    rintro other rest place
    obtain ⟨rfl, rfl⟩ := Place.reading.inj place
    have different : call ≠ owner := by
      rintro rfl
      exact matching rfl
    simpa [different] using waiting

/-- A call that has written nothing leaves nothing behind. -/
theorem Framed.dropUnwritten (framed : Framed codec handler link past unread queue) {call : Call Params}
    (writing : link.place = .writing call (call.line codec)) :
    Framed codec handler { link with place := .idle } past unread queue := by
  have incoming := framed.incoming
  have outgoing := framed.outgoing
  have ids := framed.ids
  have fresh := framed.fresh
  simp only [writing, Place.line_writing, Place.rest_writing, Place.owed_writing] at incoming outgoing ids fresh
  rw [List.map_append, frame_append, List.map_singleton, ← call_line] at outgoing
  simp only [List.map_append, ← List.append_assoc] at ids fresh
  refine ⟨framed.running, framed.served, framed.handled, incoming, ?_, by simp, ?_, ?_, by simp, by simp,
    framed.returned⟩
  · simpa using List.append_cancel_right outgoing
  · simpa using (List.pairwise_append.mp ids).1
  · intro id member
    exact fresh id (List.mem_append_left _ (by simpa using member))

/-- The reply to a call that was dropped after its request stays whole in the pipe. -/
theorem Framed.dropUnread (framed : Framed codec handler link past unread queue) {call : Call Params}
    (reading : link.place = .reading call []) :
    Framed codec handler { link with place := .idle } past unread queue := by
  have incoming := framed.incoming
  have outgoing := framed.outgoing
  have ids := framed.ids
  have fresh := framed.fresh
  simp only [reading, Place.line_reading, Place.rest_reading, Place.owed_reading] at incoming outgoing ids fresh
  exact ⟨framed.running, framed.served, framed.handled, incoming, outgoing, by simp, ids, fresh, by simp,
    by simp, framed.returned⟩

/-- Every step that keeps the framing keeps the lines whole. -/
theorem Framed.step [DecidableEq Params] (lawful : codec.Lawful handler)
    (framed : Framed codec handler link past unread queue) {action : LinkAction Params}
    (keeps : keepsFraming codec link action = true) (stepped : linkStep codec handler link action = some next) :
    ∃ past unread queue, Framed codec handler next past unread queue := by
  unfold linkStep at stepped
  split at stepped
  · rename_i method params idle
    obtain rfl := Option.some.inj stepped
    exact ⟨past, unread, queue, framed.call idle method params⟩
  · rename_i count call rest writing
    rw [Option.ite_none_right_eq_some, if_pos framed.running, Option.some.injEq] at stepped
    obtain ⟨_, rfl⟩ := stepped
    obtain ⟨queue, framed⟩ := framed.write writing count
    exact ⟨past, unread, queue, framed⟩
  · simp only [Option.ite_none_right_eq_some, Option.map_eq_some_iff] at stepped
    obtain ⟨⟨_, written⟩, ⟨line, others⟩, split, rfl⟩ := stepped
    obtain ⟨unread, queue, framed⟩ := framed.serve lawful written split
    exact ⟨past, unread, queue, framed⟩
  · rename_i _ count
    simp only [Option.ite_none_right_eq_some, Option.some.injEq] at stepped
    obtain ⟨_, rfl⟩ := stepped
    exact ⟨past, unread, queue, framed.respond count⟩
  · rename_i count call line reading
    rw [Option.ite_none_right_eq_some] at stepped
    obtain ⟨_, stepped⟩ := stepped
    split at stepped
    · rename_i part
      obtain rfl := Option.some.inj stepped
      exact ⟨past, unread, queue, framed.readPart reading part⟩
    · rename_i head others split
      obtain rfl := Option.some.inj stepped
      obtain ⟨past, unread, framed⟩ := framed.readLine lawful reading split
      exact ⟨past, unread, queue, framed⟩
  · simp [framed.running] at stepped
  · rename_i call rest writing
    obtain rfl := Option.some.inj stepped
    simp only [keepsFraming, writing, decide_eq_true_eq] at keeps
    subst keeps
    exact ⟨past, unread, queue, framed.dropUnwritten writing⟩
  · rename_i call line reading
    obtain rfl := Option.some.inj stepped
    simp only [keepsFraming, reading, decide_eq_true_eq] at keeps
    subst keeps
    exact ⟨past, unread, queue, framed.dropUnread reading⟩
  · simp at stepped

end Steps

section Liveness

variable {codec : Codec Params Result} {handler : Handler State Params Result} {link next : Link State Params Result}
  {past unread : List (Exchange Params Result)} {queue : List (Call Params)}

/-- A call has its bytes to write and then its reply to read. -/
def Place.rank : Place Params → Nat
  | .idle => 0
  | .reading _ _ => 1
  | .writing _ rest => rest.length + 2

/-- Every byte moves on, from the call to the server and back. -/
def linkRank (link : Link State Params Result) : ℕ ×ₗ ℕ ×ₗ ℕ ×ₗ ℕ :=
  toLex (link.place.rank, toLex (link.requests.length, toLex (link.outgoing.length, link.responses.length)))

theorem handleRequest_frame (codec : Codec Params Result) (handler : Handler State Params Result)
    (link : Link State Params Result) (line : List UInt8) :
    (link.handleRequest codec handler line).place = link.place ∧
      (link.handleRequest codec handler line).requests = link.requests ∧
      (link.handleRequest codec handler line).returned = link.returned := by
  unfold Link.handleRequest
  split
  · exact ⟨rfl, rfl, rfl⟩
  · split
    · exact ⟨rfl, rfl, rfl⟩
    · exact ⟨rfl, rfl, rfl⟩

/-- The call goes on reading, or it has returned. -/
theorem receive_cases (codec : Codec Params Result) (link : Link State Params Result) (call : Call Params)
    (line : List UInt8) :
    link.receive codec call line = { link with place := .reading call [] } ∨
      ∃ outcome, link.receive codec call line = link.finish call outcome := by
  unfold Link.receive
  split
  · exact .inr ⟨_, rfl⟩
  · split
    · exact .inr ⟨_, rfl⟩
    · split_ifs
      · exact .inl rfl
      · exact .inr ⟨_, rfl⟩

/-- Each transfer lowers the rank. -/
theorem transfer_lowers {action : LinkAction Params} (transfers : action.isTransfer = true)
    (running : link.running = true) (stepped : linkStep codec handler link action = some next) :
    linkRank next < linkRank link := by
  unfold linkStep at stepped
  split at stepped
  · simp [LinkAction.isTransfer] at transfers
  · rename_i count call rest writing
    rw [Option.ite_none_right_eq_some, if_pos running, Option.some.injEq] at stepped
    obtain ⟨⟨positive, within⟩, rfl⟩ := stepped
    simp only [linkRank, writing, Prod.Lex.toLex_lt_toLex]
    refine .inl ?_
    split_ifs
    · simp [Place.rank]
    · simp only [Place.rank, List.length_drop]
      omega
  · simp only [Option.ite_none_right_eq_some, Option.map_eq_some_iff] at stepped
    obtain ⟨_, ⟨line, others⟩, split, rfl⟩ := stepped
    obtain ⟨taken, _⟩ := splitLine_eq_some split
    obtain ⟨place, requests, _⟩ := handleRequest_frame codec handler { link with requests := others } line
    simp only [linkRank, place, requests, Prod.Lex.toLex_lt_toLex, taken, List.length_append, List.length_cons]
    exact .inr ⟨trivial, .inl (by omega)⟩
  · rename_i _ count
    simp only [Option.ite_none_right_eq_some, Option.some.injEq] at stepped
    obtain ⟨⟨positive, within⟩, rfl⟩ := stepped
    simp only [linkRank, Prod.Lex.toLex_lt_toLex, List.length_drop]
    exact .inr ⟨trivial, .inr ⟨trivial, .inl (by omega)⟩⟩
  · rename_i count call line reading
    rw [Option.ite_none_right_eq_some] at stepped
    obtain ⟨⟨positive, within⟩, stepped⟩ := stepped
    split at stepped
    · obtain rfl := Option.some.inj stepped
      simp only [linkRank, reading, Prod.Lex.toLex_lt_toLex, List.length_drop, Place.rank]
      exact .inr ⟨trivial, .inr ⟨trivial, .inr ⟨trivial, by omega⟩⟩⟩
    · rename_i head others split
      obtain rfl := Option.some.inj stepped
      rcases receive_cases codec { link with responses := link.responses.drop (head.length + 1) } call
        (line ++ head) with same | ⟨outcome, same⟩
      · rw [same]
        simp only [linkRank, reading, Prod.Lex.toLex_lt_toLex, List.length_drop, Place.rank]
        exact .inr ⟨trivial, .inr ⟨trivial, .inr ⟨trivial, by omega⟩⟩⟩
      · rw [same]
        simp only [linkRank, Link.finish, reading, Prod.Lex.toLex_lt_toLex, Place.rank]
        exact .inl (by omega)
  · simp [running] at stepped
  · simp [LinkAction.isTransfer] at transfers
  · simp [LinkAction.isTransfer] at transfers
  · simp at stepped

/-- While a call has not returned, some byte can be moved or some line be handled. -/
theorem Framed.idle_of_stuck (lawful : codec.Lawful handler) (framed : Framed codec handler link past unread queue)
    (stuck : (transferMachine codec handler).Stuck link) : link.place = .idle := by
  have blocked : ∀ action : LinkAction Params, action.isTransfer = true → linkStep codec handler link action = none := by
    intro action transfers
    by_contra possible
    obtain ⟨next, stepped⟩ := Option.ne_none_iff_exists'.mp possible
    exact stuck next ⟨action, transfers, stepped⟩
  cases place : link.place with
  | idle => rfl
  | writing call rest =>
      exfalso
      have some := List.length_pos_iff.mpr (framed.unwritten call rest place)
      have none := blocked (.write 1) rfl
      have one : 1 ≤ rest.length := some
      simp [linkStep, place, framed.running, one] at none
  | reading call line =>
      exfalso
      have written : link.outgoing = [] := by
        by_contra some
        have one : 1 ≤ link.outgoing.length := List.length_pos_iff.mpr some
        have none := blocked (.respond 1) rfl
        simp [linkStep, one] at none
      have read : link.responses = [] := by
        by_contra some
        have one : 1 ≤ link.responses.length := List.length_pos_iff.mpr some
        have none := blocked (.read 1) rfl
        simp only [linkStep, place, one, and_true, Nat.one_pos, if_true] at none
        split at none
        · simp at none
        · simp at none
      have incoming := framed.incoming
      rw [place, written, read, List.append_nil, List.append_nil] at incoming
      have whole := framed.whole
      rw [place] at whole
      have nothing : unread = [] := by simpa using eq_nil_of_frame whole incoming
      have expected := framed.expected call line place
      rw [nothing, List.map_nil, List.nil_append] at expected
      cases queue with
      | nil => simp at expected
      | cons first others =>
          have outgoing := framed.outgoing
          simp only [place, Place.rest_reading, Place.owed_reading, List.append_nil, List.map_cons, frame_cons] at outgoing
          have none := blocked .serve rfl
          have firstLine : lineFeed ∉ requestBytes codec first := lineFeed_notMem_encode (lawful.requestLine first)
          simp [linkStep, framed.running, written, outgoing, splitLine_append firstLine] at none

/-- The call that is under way. -/
def Place.call : Place Params → Option (Call Params)
  | .idle => none
  | .writing call _ => some call
  | .reading call _ => some call

/-- The call is under way or has returned. -/
def Made (call : Call Params) (link : Link State Params Result) : Prop :=
  link.place.call = some call ∨ ∃ outcome, (call, outcome) ∈ link.returned

/-- No transfer gives a call up. -/
theorem Made.transfer {call : Call Params} (made : Made call link) {action : LinkAction Params}
    (transfers : action.isTransfer = true) (running : link.running = true)
    (stepped : linkStep codec handler link action = some next) : Made call next := by
  unfold linkStep at stepped
  split at stepped
  · simp [LinkAction.isTransfer] at transfers
  · rename_i count other rest writing
    rw [Option.ite_none_right_eq_some, if_pos running, Option.some.injEq] at stepped
    obtain ⟨_, rfl⟩ := stepped
    rcases made with mine | returned
    · rw [writing] at mine
      refine .inl ?_
      split_ifs
      · exact mine
      · exact mine
    · exact .inr returned
  · simp only [Option.ite_none_right_eq_some, Option.map_eq_some_iff] at stepped
    obtain ⟨_, ⟨line, others⟩, split, rfl⟩ := stepped
    obtain ⟨place, _, returned⟩ := handleRequest_frame codec handler { link with requests := others } line
    simpa only [Made, place, returned] using made
  · simp only [Option.ite_none_right_eq_some, Option.some.injEq] at stepped
    obtain ⟨_, rfl⟩ := stepped
    exact made
  · rename_i count other line reading
    rw [Option.ite_none_right_eq_some] at stepped
    obtain ⟨_, stepped⟩ := stepped
    split at stepped
    · obtain rfl := Option.some.inj stepped
      rcases made with mine | returned
      · rw [reading] at mine
        exact .inl mine
      · exact .inr returned
    · rename_i head others split
      obtain rfl := Option.some.inj stepped
      rcases receive_cases codec { link with responses := link.responses.drop (head.length + 1) } other
        (line ++ head) with same | ⟨outcome, same⟩
      · rw [same]
        rcases made with mine | returned
        · rw [reading] at mine
          exact .inl mine
        · exact .inr returned
      · rw [same]
        rcases made with mine | ⟨earlier, returned⟩
        · rw [reading] at mine
          obtain rfl := Option.some.inj mine
          exact .inr ⟨outcome, by simp [Link.finish]⟩
        · exact .inr ⟨earlier, List.mem_append_left _ returned⟩
  · simp [running] at stepped
  · simp [LinkAction.isTransfer] at transfers
  · simp [LinkAction.isTransfer] at transfers
  · simp at stepped

end Liveness

section Result

variable [DecidableEq Params] {codec : Codec Params Result} {handler : Handler State Params Result}
  {link : Link State Params Result}

/-- Every run that keeps the framing keeps the lines whole. -/
theorem framed_of_reaches (lawful : codec.Lawful handler) {state : State}
    (reached : (linkMachine codec handler).ReachesWhen (keepsFraming codec) (.new state) link) :
    ∃ past unread queue, Framed codec handler link past unread queue := by
  apply Machine.ReachesWhen.invariant
    (fun link => ∃ past unread queue, Framed codec handler link past unread queue) ?_ reached
  · exact ⟨[], [], [], rfl, rfl, by simp [Link.new], rfl, rfl, by simp [Link.new], by simp [Link.new],
      by simp [Link.new], by simp [Link.new], by simp [Link.new], by simp [Link.new]⟩
  · rintro before after ⟨past, unread, queue, framed⟩ ⟨action, _, keeps, stepped⟩
    exact framed.step lawful keeps stepped

/-- Transfers keep the framing. -/
theorem keepsFraming_of_isTransfer (link : Link State Params Result) {action : LinkAction Params}
    (transfers : action.isTransfer = true) : keepsFraming codec link action = true := by
  cases action with
  | drop => simp [LinkAction.isTransfer] at transfers
  | _ => rfl

/-- When no call is dropped within its request line or within a response line, every call that returns does
so with the answer of the handler to its own request, which was handled once; and a call that is not
dropped returns after finitely many transfers, in whatever order they are made. -/
theorem answers_stay_matched (codec : Codec Params Result) (handler : Handler State Params Result)
    (lawful : codec.Lawful handler) (state : State) (link : Link State Params Result)
    (reached : (linkMachine codec handler).ReachesWhen (keepsFraming codec) (.new state) link) :
    (link.served.map fun entry => entry.1.id).Nodup ∧
    (∀ call outcome, (call, outcome) ∈ link.returned → ∃ answer, outcome = .answered answer ∧
      (call.request, answer) ∈ link.served ∧
      ∃ state, answer = (handler.dispatch state call.request).2) ∧
    (transferMachine codec handler).Terminates link ∧
    ∀ final, (transferMachine codec handler).Reaches link final →
      (transferMachine codec handler).Stuck final →
      final.place = .idle ∧
      ∀ call, link.place.call = some call → ∃ answer, (call, .answered answer) ∈ final.returned := by
  have invariant := framed_of_reaches lawful reached
  have kept : ∀ before after : Link State Params Result,
      (∃ past unread queue, Framed codec handler before past unread queue) →
      (transferMachine codec handler).Step before after →
      ∃ past unread queue, Framed codec handler after past unread queue := by
    rintro before after ⟨past, unread, queue, framed⟩ ⟨action, transfers, stepped⟩
    exact framed.step lawful (keepsFraming_of_isTransfer before transfers) stepped
  refine ⟨?_, ?_, ?_, ?_⟩
  · obtain ⟨past, unread, queue, framed⟩ := invariant
    have ascending := (List.pairwise_append.mp framed.ids).1
    have distinct : ((past ++ unread).map fun exchange => exchange.1.id).Nodup := ascending.imp fun less => less.ne
    have same : link.served.map (fun entry => entry.1.id) =
        ((past ++ unread).map fun exchange => exchange.1.id).map some := by
      rw [framed.served, List.map_map, List.map_map]
      rfl
    rw [same]
    exact List.Pairwise.map some (fun _ _ different => (Option.some_injective _).ne different) distinct
  · intro call outcome member
    obtain ⟨past, unread, queue, framed⟩ := invariant
    obtain ⟨answer, answered, known⟩ := framed.returned _ member
    have entry : (call.request, answer) ∈ link.served := by
      rw [framed.served]
      exact List.mem_map_of_mem known
    exact ⟨answer, answered, entry, framed.handled _ entry⟩
  · apply Machine.terminates_of_rank wellFounded_lt linkRank _ kept ?_ link invariant
    rintro before after ⟨past, unread, queue, framed⟩ ⟨action, transfers, stepped⟩
    exact transfer_lowers transfers framed.running stepped
  · intro final path stuck
    obtain ⟨past, unread, queue, framed⟩ := Machine.Reaches.invariant _ kept path invariant
    have idle := framed.idle_of_stuck lawful stuck
    refine ⟨idle, ?_⟩
    intro call under
    have made : (∃ past unread queue, Framed codec handler final past unread queue) ∧ Made call final := by
      apply Machine.Reaches.invariant (fun link => (∃ past unread queue, Framed codec handler link past unread queue) ∧
        Made call link) ?_ path ⟨invariant, .inl under⟩
      rintro before after ⟨invariant, made⟩ stepped
      refine ⟨kept before after invariant stepped, ?_⟩
      obtain ⟨_, _, _, framed⟩ := invariant
      obtain ⟨action, transfers, stepped⟩ := stepped
      exact made.transfer transfers framed.running stepped
    rcases made.2 with pending | ⟨outcome, returned⟩
    · simp [idle, Place.call] at pending
    · obtain ⟨answer, answered, _⟩ := framed.returned _ returned
      exact ⟨answer, answered ▸ returned⟩

end Result

/-- An object starts with the id. -/
def sampleText (id : Nat) (tail : List Char) : List Char :=
  ['{', '"', 'i', 'd', '"', ':'] ++ Nat.toDigits 10 id ++ ',' :: tail ++ ['}']

/-- A request without parameters goes on with its method. -/
def requestTail (method : Method) : List Char :=
  "\"jsonrpc\":\"2.0\",\"method\":\"".toList ++ method.name.toList ++ "\",\"params\":\x7b\x7d".toList

/-- A reply goes on with an empty list of methods. -/
def responseTail : List Char := "\"jsonrpc\":\"2.0\",\"result\":\x7b\"methods\":[]\x7d".toList

/-- The number behind the opening of the text. -/
def sampleId (text : List Char) : Nat := Nat.ofDigitChars 10 ((text.drop 6).takeWhile Char.isDigit) 0

def sampleMethods : List Method := [.setup, .activate, .teardown, .metrics, .createStagingTable, .rpcMethods]

/-- This codec writes what the JSON library writes for a request without parameters and for the reply to it. -/
def sampleCodec : Codec Unit Unit where
  requestText id method _ := String.ofList (sampleText id (requestTail method))
  parseRequest text :=
    match sampleMethods.find? fun method => sampleText (sampleId text.toList) (requestTail method) = text.toList with
    | some method => .ok ⟨some (sampleId text.toList), some method.name, some ()⟩
    | none => .error "expected value"
  responseText
    | ⟨some id, .result ()⟩ => String.ofList (sampleText id responseTail)
    | _ => "\x7b\x7d"
  parseResponse text :=
    if sampleText (sampleId text.toList) responseTail = text.toList then
      .ok ⟨some (sampleId text.toList), .result ()⟩
    else .error "expected value"

def sampleHandler : Handler Unit Unit Unit where
  decodes _ _ := .ok ()
  call state _ _ := (state, .ok ())
  rpcMethods _ := ()

theorem sampleId_sampleText (id : Nat) (tail : List Char) : sampleId (sampleText id tail) = id := by
  have behind : (sampleText id tail).drop 6 = Nat.toDigits 10 id ++ ',' :: (tail ++ ['}']) := by
    simp [sampleText]
  rw [sampleId, behind, takeWhile_decimal (by simp), Nat.ofDigitChars_ten_toDigits]

theorem newline_notMem_sampleText {id : Nat} {tail : List Char} (line : '\n' ∉ tail) :
    '\n' ∉ sampleText id tail := by
  have digits : '\n' ∉ Nat.toDigits 10 id := by
    intro member
    have digit := isDigit_of_mem_decimal member
    simp at digit
  simp [sampleText, digits, line]

theorem sample_dispatch (state : Unit) (call : Call Unit) :
    (sampleHandler.dispatch state call.request).2 = .result () := by
  obtain ⟨id, method, params⟩ := call
  cases method <;>
    simp [Handler.dispatch, Call.request, Method.name, Handler.handleSetup, Handler.handleActivate,
      Handler.handleTeardown, Handler.handleMetrics, Handler.handleCreateStagingTable, Handler.handleMethod,
      Handler.parseParams, Handler.handlerResponse, Handler.handleRpcMethods, sampleHandler]

theorem newline_notMem_requestTail (method : Method) : '\n' ∉ requestTail method := by
  have before : '\n' ∉ "\"jsonrpc\":\"2.0\",\"method\":\"".toList := newline_notMem_of_encode (by decide)
  have name : '\n' ∉ method.name.toList := newline_notMem_of_encode (by cases method <;> decide)
  have after : '\n' ∉ "\",\"params\":\x7b\x7d".toList := newline_notMem_of_encode (by decide)
  unfold requestTail
  rw [List.mem_append, List.mem_append, not_or, not_or]
  exact ⟨⟨before, name⟩, after⟩

theorem Method.name_inj {first second : Method} (same : first.name = second.name) : first = second := by
  cases first <;> cases second <;> first | rfl | simp [Method.name] at same

theorem requestTail_inj {first second : Method} (same : requestTail first = requestTail second) :
    first = second := by
  apply Method.name_inj
  apply String.toList_inj.mp
  unfold requestTail at same
  generalize "\"jsonrpc\":\"2.0\",\"method\":\"".toList = before at same
  generalize "\",\"params\":\x7b\x7d".toList = after at same
  exact List.append_cancel_left (List.append_cancel_right same)

/-- The sample texts are objects on one line that are read back. -/
theorem sampleCodec_lawful : sampleCodec.Lawful sampleHandler where
  requestShape call := by
    refine ⟨['"', 'i', 'd', '"', ':'] ++ Nat.toDigits 10 call.id ++ ',' :: requestTail call.method, ?_⟩
    simp [sampleCodec, sampleText]
  requestLine call := by
    simp only [sampleCodec, String.toList_ofList]
    exact newline_notMem_sampleText (newline_notMem_requestTail call.method)
  requestParse call := by
    obtain ⟨id, method, ⟨⟩⟩ := call
    have found : sampleMethods.find? (fun other =>
        decide (sampleText id (requestTail other) = sampleText id (requestTail method))) = some method := by
      have only : ∀ other, sampleText id (requestTail other) = sampleText id (requestTail method) ↔
          other = method := by
        intro other
        refine ⟨fun same => ?_, by rintro rfl; rfl⟩
        have tails := List.append_cancel_left (List.append_cancel_right same)
        exact requestTail_inj (List.cons.inj tails).2
      simp only [only]
      cases method <;> rfl
    simp only [sampleCodec, String.toList_ofList, sampleId_sampleText, found, Call.request]
  responseShape call state := by
    refine ⟨['"', 'i', 'd', '"', ':'] ++ Nat.toDigits 10 call.id ++ ',' :: responseTail, ?_⟩
    simp [sample_dispatch, sampleCodec, sampleText]
  responseLine call state := by
    simp only [sample_dispatch, sampleCodec, String.toList_ofList]
    exact newline_notMem_sampleText (newline_notMem_of_encode (by decide))
  responseParse call state := by
    simp only [sample_dispatch, sampleCodec, String.toList_ofList, sampleId_sampleText, if_true]

/-- The calls of the runs. -/
def sampleCall (id : Nat) : Call Unit := ⟨id, .rpcMethods, ()⟩

def sampleLine (id : Nat) : List UInt8 := (sampleCall id).line sampleCodec

def sampleReply (id : Nat) : List UInt8 := replyBytes sampleCodec (sampleCall id, .result ())

example : lineFeed ∉ (requestTail .setup).flatMap String.utf8EncodeChar := by decide +kernel

theorem length_encode_ofList (chars : List Char) :
    (encode (String.ofList chars)).length = (chars.map Char.utf8Size).sum := by
  simp [encode_eq, List.length_flatMap]

theorem length_sampleLine : ∀ id ∈ [1, 2], (sampleLine id).length = 60 := by
  unfold sampleLine Call.line sampleCodec sampleText requestTail
  simp only [sampleCall, List.length_append, length_encode_ofList, List.map_append, List.map_cons, List.sum_append,
    List.sum_cons, sum_utf8Size, -String.reduceToList]
  decide +kernel

theorem length_sampleReply : ∀ id ∈ [1, 2], (sampleReply id).length = 48 := by
  unfold sampleReply replyBytes sampleCodec sampleText responseTail
  simp only [sampleCall, length_encode_ofList, List.map_append, List.map_cons, List.sum_append, List.sum_cons,
    sum_utf8Size, -String.reduceToList]
  decide +kernel

example : lineFeed ∉ responseTail.flatMap String.utf8EncodeChar := by decide +kernel

theorem lineFeed_notMem_sampleReply (id : Nat) : lineFeed ∉ sampleReply id :=
  lineFeed_notMem_encode (sampleCodec_lawful.responseLine (sampleCall id) ())

theorem step_serveSample {link : Link Unit Unit Unit} {id : Nat} {others : List UInt8} (running : link.running = true)
    (written : link.outgoing = []) (waiting : link.requests = sampleLine id ++ others) :
    (linkMachine sampleCodec sampleHandler).step link .serve = some { link with
      requests := others
      outgoing := sampleReply id ++ [lineFeed]
      served := link.served ++ [((sampleCall id).request, .result ())] } := by
  rw [step_serveLine sampleCodec_lawful running written waiting, sample_dispatch]
  rfl

theorem receive_sampleReply (link : Link Unit Unit Unit) (id other : Nat) :
    link.receive sampleCodec (sampleCall id) (sampleReply other) =
      if other = id then link.finish (sampleCall id) (.answered (.result ()))
      else { link with place := .reading (sampleCall id) [] } :=
  receive_replyBytes sampleCodec_lawful link (sampleCall id) ⟨(), (sample_dispatch () (sampleCall other)).symm⟩

/-- A call is dropped after its request, and the next one skips the reply that is left. -/
def droppedUnread : List (LinkAction Unit) :=
  [.call .rpcMethods (), .write 60, .drop, .call .rpcMethods (), .write 60, .serve, .respond 49, .serve, .respond 49,
    .read 49, .read 20, .read 29]

theorem run_droppedUnread : ∃ link,
    (linkMachine sampleCodec sampleHandler).runWhen (keepsFraming sampleCodec) (.new ()) droppedUnread = some link ∧
      link.returned = [(sampleCall 2, .answered (.result ()))] := by
  have lines (id : Nat) (known : id ∈ [1, 2]) : (sampleLine id).length = 60 := length_sampleLine id known
  have replies (id : Nat) (known : id ∈ [1, 2]) : (sampleReply id).length = 48 := length_sampleReply id known
  have whole := lineFeed_notMem_sampleReply
  have parts : sampleReply 2 = (sampleReply 2).take 20 ++ (sampleReply 2).drop 20 :=
    (List.take_append_drop 20 _).symm
  have arrived : sampleReply 2 ++ [lineFeed] =
      (sampleReply 2).take 20 ++ ((sampleReply 2).drop 20 ++ [lineFeed]) := by
    rw [← List.append_assoc, ← parts]
  let served : List (Request Unit × Answer Unit) := [((sampleCall 1).request, .result ())]
  let bothServed : List (Request Unit × Answer Unit) := served ++ [((sampleCall 2).request, .result ())]
  -- The first call is dropped behind its request.
  refine Machine.exists_runWhen_cons ⟨2, .writing (sampleCall 1) (sampleLine 1), [], true, (), [], [], [], []⟩ rfl
    rfl ?_
  refine Machine.exists_runWhen_cons ⟨2, .reading (sampleCall 1) [], sampleLine 1, true, (), [], [], [], []⟩ rfl
    (step_writeLine rfl rfl (lines 1 (by simp))) ?_
  refine Machine.exists_runWhen_cons ⟨2, .idle, sampleLine 1, true, (), [], [], [], []⟩ rfl rfl ?_
  refine Machine.exists_runWhen_cons ⟨3, .writing (sampleCall 2) (sampleLine 2), sampleLine 1, true, (), [], [], [], []⟩
    rfl rfl ?_
  refine Machine.exists_runWhen_cons ⟨3, .reading (sampleCall 2) [], sampleLine 1 ++ sampleLine 2, true, (), [], [], [],
    []⟩ rfl (step_writeLine rfl rfl (lines 2 (by simp))) ?_
  -- Both requests are served.
  refine Machine.exists_runWhen_cons ⟨3, .reading (sampleCall 2) [], sampleLine 2, true, (),
    sampleReply 1 ++ [lineFeed], [], served, []⟩ rfl (step_serveSample rfl rfl rfl) ?_
  refine Machine.exists_runWhen_cons ⟨3, .reading (sampleCall 2) [], sampleLine 2, true, (), [],
    sampleReply 1 ++ [lineFeed], served, []⟩ rfl (step_respondLine rfl (by rw [replies 1 (by simp)])) ?_
  refine Machine.exists_runWhen_cons ⟨3, .reading (sampleCall 2) [], [], true, (), sampleReply 2 ++ [lineFeed],
    sampleReply 1 ++ [lineFeed], bothServed, []⟩ rfl
    (step_serveSample rfl rfl (List.append_nil _).symm) ?_
  refine Machine.exists_runWhen_cons ⟨3, .reading (sampleCall 2) [], [], true, (), [],
    sampleReply 1 ++ [lineFeed] ++ (sampleReply 2 ++ [lineFeed]), bothServed, []⟩ rfl
    (step_respondLine rfl (by rw [replies 2 (by simp)])) ?_
  -- The reply to the first call is skipped.
  refine Machine.exists_runWhen_cons ⟨3, .reading (sampleCall 2) [], [], true, (), [], sampleReply 2 ++ [lineFeed],
    bothServed, []⟩ rfl ?_ ?_
  · rw [step_readLine rfl (List.append_assoc _ _ _) (whole 1) (by rw [replies 1 (by simp)]), List.nil_append,
      receive_sampleReply]
    rfl
  refine Machine.exists_runWhen_cons _ rfl (step_readPart rfl arrived
    (fun member => whole 2 (List.mem_of_mem_take member)) (by decide)
    (by rw [List.length_take, replies 2 (by simp)]; rfl)) ?_
  refine Machine.exists_runWhen_cons ⟨3, .idle, [], true, (), [], [], bothServed,
    [(sampleCall 2, .answered (.result ()))]⟩ rfl ?_ ⟨_, rfl, rfl⟩
  rw [step_readLine rfl rfl (fun member => whole 2 (List.mem_of_mem_drop member))
    (by rw [List.length_drop, replies 2 (by simp)]), List.nil_append, ← parts, receive_sampleReply]
  rfl

theorem answers_stay_matched_sample :
    ∃ link, (linkMachine sampleCodec sampleHandler).ReachesWhen (keepsFraming sampleCodec) (.new ()) link ∧
      link.returned = [(⟨2, .rpcMethods, ()⟩, .answered (.result ()))] ∧
      (⟨some 2, some "rpc.methods", some ()⟩, .result ()) ∈ link.served := by
  obtain ⟨link, ran, returned⟩ := run_droppedUnread
  have reached := (linkMachine sampleCodec sampleHandler).reachesWhen_of_runWhen
    (fun _ _ => trivial) ran
  obtain ⟨_, matched, _⟩ := answers_stay_matched sampleCodec sampleHandler sampleCodec_lawful () link reached
  obtain ⟨answer, answered, entry, _⟩ := matched (sampleCall 2) (.answered (.result ())) (by simp [returned])
  obtain rfl := Outcome.answered.inj answered
  exact ⟨link, reached, returned, entry⟩

/-- A call is dropped within its reply, and the next call reads the rest of it. -/
def droppedRead : List (LinkAction Unit) :=
  [.call .rpcMethods (), .write 60, .serve, .respond 49, .read 5, .drop, .call .rpcMethods (), .write 60, .read 44]

example : droppedRead.all LinkAction.isTransfer = false := by decide +kernel

/-- The opening of a reply has one byte for each character. -/
theorem sampleReply_eq : sampleReply 1 = [123, 34, 105, 100, 34] ++
    encode (String.ofList ((sampleText 1 responseTail).drop 5)) := by
  have cut : sampleText 1 responseTail = ['{', '"', 'i', 'd', '"'] ++ (sampleText 1 responseTail).drop 5 := rfl
  have opening : ['{', '"', 'i', 'd', '"'].flatMap String.utf8EncodeChar = [123, 34, 105, 100, 34] := by decide
  simp only [sampleReply, replyBytes, sampleCodec, encode_eq, String.toList_ofList]
  rw [← opening, ← List.flatMap_append, ← cut]
  rfl

/-- The rest of a reply is no object. -/
theorem parseResponse_rest :
    sampleCodec.parseResponse (trimEnd (String.ofList ((sampleText 1 responseTail).drop 5))) =
      .error "expected value" := by
  have closed : (String.ofList ((sampleText 1 responseTail).drop 5)).toList =
      (':' :: Nat.toDigits 10 1 ++ ',' :: responseTail) ++ ['}'] := by
    simp [sampleText]
  rw [trimEnd_closed closed]
  simp only [sampleCodec, closed]
  rw [if_neg]
  simp [sampleText]

theorem run_droppedRead : ∃ link, (linkMachine sampleCodec sampleHandler).run (.new ()) droppedRead = some link ∧
    link.returned = [(sampleCall 2, .json "expected value")] := by
  have lines (id : Nat) (known : id ∈ [1, 2]) : (sampleLine id).length = 60 := length_sampleLine id known
  have whole := lineFeed_notMem_sampleReply 1
  rw [sampleReply_eq, List.mem_append, not_or] at whole
  let rest : List UInt8 := encode (String.ofList ((sampleText 1 responseTail).drop 5))
  have size : rest.length + 1 = 44 := by
    have reply := length_sampleReply 1 (by simp)
    rw [sampleReply_eq, List.length_append] at reply
    change 5 + rest.length = 48 at reply
    omega
  have arrived : sampleReply 1 ++ [lineFeed] = [123, 34, 105, 100, 34] ++ (rest ++ [lineFeed]) := by
    rw [sampleReply_eq, List.append_assoc]
  let served : List (Request Unit × Answer Unit) := [((sampleCall 1).request, .result ())]
  refine Machine.exists_run_cons ⟨2, .writing (sampleCall 1) (sampleLine 1), [], true, (), [], [], [], []⟩ rfl ?_
  refine Machine.exists_run_cons ⟨2, .reading (sampleCall 1) [], sampleLine 1, true, (), [], [], [], []⟩
    (step_writeLine rfl rfl (lines 1 (by simp))) ?_
  refine Machine.exists_run_cons ⟨2, .reading (sampleCall 1) [], [], true, (), sampleReply 1 ++ [lineFeed], [],
    served, []⟩ (step_serveSample rfl rfl (List.append_nil _).symm) ?_
  refine Machine.exists_run_cons ⟨2, .reading (sampleCall 1) [], [], true, (), [], sampleReply 1 ++ [lineFeed],
    served, []⟩ (step_respondLine rfl (by rw [length_sampleReply 1 (by simp)])) ?_
  -- The call is dropped behind the opening of its reply.
  refine Machine.exists_run_cons _ (step_readPart rfl arrived whole.1 (by decide) rfl) ?_
  refine Machine.exists_run_cons ⟨2, .idle, [], true, (), [], rest ++ [lineFeed], served, []⟩ rfl ?_
  refine Machine.exists_run_cons ⟨3, .writing (sampleCall 2) (sampleLine 2), [], true, (), [], rest ++ [lineFeed],
    served, []⟩ rfl ?_
  refine Machine.exists_run_cons ⟨3, .reading (sampleCall 2) [], sampleLine 2, true, (), [], rest ++ [lineFeed],
    served, []⟩ (step_writeLine rfl rfl (lines 2 (by simp))) ?_
  refine Machine.exists_run_cons ⟨3, .idle, sampleLine 2, true, (), [], [], served,
    [(sampleCall 2, .json "expected value")]⟩ ?_ ⟨_, rfl, rfl⟩
  rw [step_readLine rfl rfl whole.2 size, List.nil_append, Link.receive, decode_encode]
  simp only [parseResponse_rest]
  rfl

/-- The next call fails on what the dropped one has left of a line. -/
theorem dropped_read_fails_next :
    ∃ link, (linkMachine sampleCodec sampleHandler).Reaches (.new ()) link ∧
      link.returned = [(⟨2, .rpcMethods, ()⟩, .json "expected value")] := by
  obtain ⟨link, ran, returned⟩ := run_droppedRead
  exact ⟨link, Machine.reaches_of_run _ (fun _ _ => trivial) ran, returned⟩

end Spicebench.SystemAdapter
