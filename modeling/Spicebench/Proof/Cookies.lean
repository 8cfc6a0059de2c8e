import Mathlib
import Spicebench.Construction.Cookies

namespace Spicebench.FlightClient

open DurationParse (isWhitespace trim)
open Library

section Trimmed

/-- A text neither starts nor ends with white space. -/
structure Trimmed (text : List Char) : Prop where
  head : ∀ char, text.head? = some char → isWhitespace char = false
  last : ∀ char, text.getLast? = some char → isWhitespace char = false

variable {text : List Char}

theorem trim_subset (text : List Char) : trim text ⊆ text :=
  ((List.rdropWhile_prefix isWhitespace _).sublist.trans (List.dropWhile_sublist _)).subset

theorem trimmed_trim (text : List Char) : Trimmed (trim text) where
  head char first := by
    -- The head of a front of what is left is the head of what is left.
    obtain ⟨rest, same⟩ := List.rdropWhile_prefix isWhitespace (text.dropWhile isWhitespace)
    have leads : (text.dropWhile isWhitespace).head? = some char := by
      rw [← same, List.head?_append]
      exact congrArg (Option.or · _) first
    have stops := List.head?_dropWhile_not isWhitespace text
    rw [leads] at stops
    exact stops
  last char ending := by
    have kept : (text.dropWhile isWhitespace).rdropWhile isWhitespace ≠ [] := by
      intro gone
      rw [trim, gone] at ending
      exact nomatch ending
    have stops := List.rdropWhile_last_not isWhitespace _ kept
    rw [trim, List.getLast?_eq_some_getLast kept, Option.some.injEq] at ending
    rwa [ending, Bool.not_eq_true] at stops

theorem Trimmed.trim_eq (trimmed : Trimmed text) : trim text = text := by
  have front : text.dropWhile isWhitespace = text := by
    cases text with
    | nil => rfl
    | cons first rest => exact List.dropWhile_cons_of_neg (by simp [trimmed.head first rfl])
  rw [trim, front, List.rdropWhile_eq_self_iff]
  intro some
  simp [trimmed.last _ (List.getLast?_eq_some_getLast some)]

/-- White space in front of a text that is trimmed is cut off. -/
theorem Trimmed.trim_space (trimmed : Trimmed text) : trim (' ' :: text) = text := by
  rw [trim, List.dropWhile_cons_of_pos (by decide)]
  exact trimmed.trim_eq

end Trimmed

section Parsing

/-- The text of a pair. -/
def written (cookie : Cookie) : List Char := cookie.1 ++ '=' :: cookie.2

/-- The characters that `toStr` reads. -/
def Visible (char : Char) : Prop := (32 ≤ char.toNat ∧ char.toNat < 127) ∨ char.toNat = 9

/-- A pair that can be sent: its parts neither break it nor change when they are read. -/
structure Sendable (cookie : Cookie) : Prop where
  named : cookie.1 ≠ []
  name : Trimmed cookie.1
  value : Trimmed cookie.2
  single : '=' ∉ cookie.1
  whole : ';' ∉ written cookie
  visible : ∀ char ∈ written cookie, Visible char

variable {text : List Char} {cookie : Cookie}

theorem splitOnce_eq_some {mark : Char} {front back : List Char} (split : splitOnce mark text = some (front, back)) :
    text = front ++ mark :: back ∧ mark ∉ front := by
  unfold splitOnce at split
  split at split
  · exact nomatch split
  · rename_i first rest found
    obtain ⟨rfl, rfl⟩ := Prod.mk.inj (Option.some.inj split)
    have marked := List.head?_dropWhile_not (· ≠ mark) text
    rw [found] at marked
    obtain rfl : first = mark := by simpa using marked
    constructor
    · rw [← found, List.takeWhile_append_dropWhile]
    · intro inside
      simpa using List.mem_takeWhile_imp inside

theorem splitOnce_append {mark : Char} {front : List Char} (plain : mark ∉ front) (back : List Char) :
    splitOnce mark (front ++ mark :: back) = some (front, back) := by
  have all : ∀ char ∈ front, decide (char ≠ mark) = true := fun char inside =>
    decide_eq_true fun same => plain (same ▸ inside)
  rw [splitOnce, List.dropWhile_append_of_pos all, List.takeWhile_append_of_pos all]
  simp

theorem parseSetCookie_sendable (visible : ∀ char ∈ text, Visible char) (parsed : parseSetCookie text = some cookie) :
    Sendable cookie := by
  simp only [parseSetCookie, Option.bind_eq_bind, Option.bind_eq_some_iff] at parsed
  obtain ⟨⟨name, value⟩, split, parsed⟩ := parsed
  dsimp only at parsed
  split_ifs at parsed with unnamed
  obtain rfl := Option.some.inj parsed
  obtain ⟨entry, single⟩ := splitOnce_eq_some split
  have front : ∀ char ∈ name ++ '=' :: value, char ∈ text ∧ char ≠ ';' := by
    intro char inside
    rw [← entry] at inside
    have taken := trim_subset _ inside
    exact ⟨(List.takeWhile_prefix _).subset taken, by simpa using List.mem_takeWhile_imp taken⟩
  have known : ∀ char ∈ written (trim name, trim value), char ∈ name ++ '=' :: value := by
    intro char inside
    rcases List.mem_append.mp inside with named | valued
    · exact List.mem_append_left _ (trim_subset _ named)
    · rcases List.mem_cons.mp valued with rfl | valued
      · simp
      · exact List.mem_append_right _ (List.mem_cons_of_mem _ (trim_subset _ valued))
  exact {
    named := by simpa using unnamed
    name := trimmed_trim name
    value := trimmed_trim value
    single := fun inside => single (trim_subset _ inside)
    whole := fun inside => (front _ (known _ inside)).2 rfl
    visible := fun char inside => visible char (front _ (known _ inside)).1 }

theorem Sendable.trimmed (sendable : Sendable cookie) : Trimmed (written cookie) where
  head char first := by
    rw [written, List.head?_append_of_ne_nil _ sendable.named] at first
    exact sendable.name.head char first
  last char ending := by
    rw [written, List.getLast?_append_cons, List.getLast?_cons] at ending
    cases ended : cookie.2.getLast? with
    | none =>
        rw [ended] at ending
        obtain rfl := Option.some.inj ending
        decide
    | some final =>
        rw [ended] at ending
        obtain rfl := Option.some.inj ending
        exact sendable.value.last _ ended

/-- A pair as it stands in a header: behind a separator it follows a space. -/
def Written (cookie : Cookie) (text : List Char) : Prop := text = written cookie ∨ text = ' ' :: written cookie

theorem Sendable.unbroken (sendable : Sendable cookie) (own : Written cookie text) : ';' ∉ text := by
  intro inside
  rcases own with rfl | rfl
  · exact sendable.whole inside
  · exact sendable.whole ((List.mem_cons.mp inside).resolve_left (by decide))

theorem Sendable.parse_eq (sendable : Sendable cookie) (own : Written cookie text) :
    parseSetCookie text = some cookie := by
  have all : text.takeWhile (· ≠ ';') = text := by
    rw [List.takeWhile_eq_self_iff]
    intro char inside
    exact decide_eq_true fun same => sendable.unbroken own (same ▸ inside)
  have entry : trim text = written cookie := by
    rcases own with rfl | rfl
    · exact sendable.trimmed.trim_eq
    · exact sendable.trimmed.trim_space
  simp only [parseSetCookie, all, entry, written, splitOnce_append sendable.single, Option.bind_eq_bind,
    Option.bind_some, sendable.name.trim_eq, sendable.value.trim_eq, List.isEmpty_iff, sendable.named, if_false]

end Parsing

section Headers

variable {text : List Char}

theorem isVisibleAscii_iff (byte : UInt8) :
    isVisibleAscii byte = true ↔ (32 ≤ byte.toNat ∧ byte.toNat < 127) ∨ byte.toNat = 9 := by
  simp [isVisibleAscii, UInt8.le_iff_toNat_le, UInt8.lt_iff_toNat_lt, ← UInt8.toNat_inj]

theorem isHeaderByte_of_visible {byte : UInt8} (visible : isVisibleAscii byte = true) : isHeaderByte byte = true := by
  rw [isVisibleAscii_iff] at visible
  simp only [isHeaderByte, Bool.or_eq_true, Bool.and_eq_true, decide_eq_true_eq, bne_iff_ne, ne_eq, beq_iff_eq,
    UInt8.le_iff_toNat_le, ← UInt8.toNat_inj]
  rcases visible with ⟨least, most⟩ | tab
  · exact .inl ⟨least, Nat.ne_of_lt most⟩
  · exact .inr tab

theorem Visible.toNat_lt {char : Char} (visible : Visible char) : char.toNat < 128 := by
  unfold Visible at visible
  omega

theorem Visible.toNat_ofNat {char : Char} (visible : Visible char) : (UInt8.ofNat char.toNat).toNat = char.toNat := by
  have small := visible.toNat_lt
  rw [UInt8.toNat_ofNat']
  omega

/-- A visible character is one byte. -/
theorem encode_visible (visible : ∀ char ∈ text, Visible char) :
    encode text = text.map fun char => UInt8.ofNat char.toNat := by
  induction text with
  | nil => rfl
  | cons char text same =>
      obtain ⟨small, rest⟩ := List.forall_mem_cons.mp visible
      rw [List.map_cons, ← same rest, encode, List.flatMap_cons]
      rcases utf8EncodeChar_cases char with ⟨_, _, single⟩ | ⟨large, _⟩
      · rw [single]
        rfl
      · exact absurd small.toNat_lt (Nat.not_lt.mpr large)

/-- A visible text becomes a header value that is read as the text. -/
theorem exists_fromStr (visible : ∀ char ∈ text, Visible char) :
    ∃ header, HeaderValue.fromStr text = some header ∧ header.toStr = some text := by
  have encoded := encode_visible visible
  have bytes : ∀ byte ∈ encode text, isVisibleAscii byte = true := by
    intro byte inside
    rw [encoded] at inside
    obtain ⟨char, member, rfl⟩ := List.mem_map.mp inside
    rw [isVisibleAscii_iff, (visible char member).toNat_ofNat]
    exact visible char member
  have valid : (encode text).all isHeaderByte = true :=
    List.all_eq_true.mpr fun byte inside => isHeaderByte_of_visible (bytes byte inside)
  refine ⟨⟨encode text, valid⟩, dif_pos valid, ?_⟩
  rw [HeaderValue.toStr, if_pos (List.all_eq_true.mpr bytes)]
  simp only [encoded, List.map_map]
  refine congrArg some ((List.map_congr_left fun char member => ?_).trans (List.map_id text))
  rw [Function.comp_apply, (visible char member).toNat_ofNat, Char.ofNat_toNat, id]

theorem toStr_visible {header : HeaderValue} (read : header.toStr = some text) : ∀ char ∈ text, Visible char := by
  unfold HeaderValue.toStr at read
  split_ifs at read with visible
  obtain rfl := Option.some.inj read
  intro char inside
  obtain ⟨byte, member, rfl⟩ := List.mem_map.mp inside
  have bounds := (isVisibleAscii_iff byte).mp (List.all_eq_true.mp visible byte member)
  have code : (Char.ofNat byte.toNat).toNat = byte.toNat := by
    rw [Char.ofNat, dif_pos (.inl (by omega))]
    rfl
  rwa [Visible, code]

end Headers

section Store

/-- The pairs of a `Cookie` header, each one read as the client reads a pair of its own. -/
def cookiesOf (text : List Char) : List Cookie := (text.splitOn ';').filterMap parseSetCookie

/-- The pairs that are written after each other are the pairs that are read. -/
theorem cookiesOf_intercalate {rest : List Cookie} (others : ∀ cookie ∈ rest, Sendable cookie) {first : Cookie}
    (sendable : Sendable first) {text : List Char} (own : Written first text) :
    cookiesOf (List.intercalate [';', ' '] (text :: rest.map written)) = first :: rest := by
  induction rest generalizing first text with
  | nil =>
      rw [List.map_nil, List.intercalate_singleton, cookiesOf, List.splitOn_eq_singleton (sendable.unbroken own),
        List.filterMap_cons_some (sendable.parse_eq own), List.filterMap_nil]
  | cons next rest same =>
      obtain ⟨nextSendable, others⟩ := List.forall_mem_cons.mp others
      -- The space of the separator belongs to the pair behind it.
      have later := same others nextSendable (.inr rfl)
      rw [List.intercalate_cons_cons_left] at later
      rw [List.map_cons, List.intercalate_cons_cons, List.append_assoc, List.cons_append, List.singleton_append,
        cookiesOf, List.splitOn_append_cons_self_of_not_mem (sendable.unbroken own),
        List.filterMap_cons_some (sendable.parse_eq own)]
      exact congrArg _ later

theorem mem_of_mem_intercalate {separator : List Char} {parts : List (List Char)} {char : Char}
    (inside : char ∈ List.intercalate separator parts) : char ∈ separator ∨ ∃ part ∈ parts, char ∈ part := by
  induction parts with
  | nil => simp at inside
  | cons part parts earlier =>
      cases parts with
      | nil => exact .inr ⟨part, List.mem_cons_self, by simpa using inside⟩
      | cons next parts =>
          rw [List.intercalate_cons_cons, List.append_assoc, List.mem_append, List.mem_append] at inside
          rcases inside with own | between | later
          · exact .inr ⟨part, List.mem_cons_self, own⟩
          · exact .inl between
          · rcases earlier later with between | ⟨other, member, own⟩
            · exact .inl between
            · exact .inr ⟨other, List.mem_cons_of_mem _ member, own⟩

/-- A `Cookie` header holds each name that has a value once, with this value. -/
def Carries (value? : List Char → Option (List Char)) (header : HeaderValue) : Prop :=
  ∃ text, header.toStr = some text ∧ ((cookiesOf text).map Prod.fst).Nodup ∧
    ∀ name value, (name, value) ∈ cookiesOf text ↔ value? name = some value

namespace CookieStore

/-- All that is stored can be sent. -/
def Sound (store : CookieStore) : Prop := ∀ name value, store.lookup name = some value → Sendable (name, value)

theorem mem_cookies {store : CookieStore} {name value : List Char} :
    (name, value) ∈ store.cookies ↔ store.lookup name = some value := by
  rw [← Option.mem_def, AList.mem_lookup_iff, cookies, List.mem_map]
  constructor
  · rintro ⟨⟨_, _⟩, inside, same⟩
    obtain ⟨rfl, rfl⟩ := Prod.mk.inj same
    exact inside
  · intro inside
    exact ⟨⟨name, value⟩, inside, rfl⟩

theorem nodup_cookies (store : CookieStore) : (store.cookies.map Prod.fst).Nodup := by
  have names : store.cookies.map Prod.fst = store.keys := List.map_map
  rw [names]
  exact store.keys_nodup

/-- The header of a store that is not empty can be made, and holds what is stored. -/
theorem Sound.exists_header {store : CookieStore} (sound : store.Sound) (stored : store.cookies ≠ [])
    (order : HashOrder Cookie) :
    ∃ header, store.cookieHeaderValue order = some header ∧ Carries (store.lookup ·) header := by
  have arranged := order.perm store.cookies
  have sendable : ∀ cookie ∈ order.arrange store.cookies, Sendable cookie := fun cookie inside =>
    sound cookie.1 cookie.2 (mem_cookies.mp (arranged.mem_iff.mp inside))
  let text := List.intercalate [';', ' '] ((order.arrange store.cookies).map written)
  have cookies : cookiesOf text = order.arrange store.cookies := by
    cases listed : order.arrange store.cookies with
    | nil =>
        rw [listed] at arranged
        exact absurd arranged.nil_eq.symm stored
    | cons first rest =>
        rw [listed] at sendable
        obtain ⟨firstSendable, others⟩ := List.forall_mem_cons.mp sendable
        simp only [text, listed, List.map_cons]
        exact cookiesOf_intercalate others firstSendable (.inl rfl)
  have visible : ∀ char ∈ text, Visible char := by
    intro char inside
    rcases mem_of_mem_intercalate inside with between | ⟨part, member, own⟩
    · have known : char = ';' ∨ char = ' ' := by simpa using between
      rcases known with rfl | rfl
      · exact .inl (by decide)
      · exact .inl (by decide)
    · obtain ⟨cookie, listed, rfl⟩ := List.mem_map.mp member
      exact (sendable cookie listed).visible char own
  obtain ⟨header, made, read⟩ := exists_fromStr visible
  refine ⟨header, ?_, text, read, ?_, ?_⟩
  · rw [cookieHeaderValue, if_neg (by simpa using stored)]
    exact made
  · rw [cookies]
    exact ((arranged.map Prod.fst).nodup_iff).mpr store.nodup_cookies
  · intro name value
    rw [cookies, arranged.mem_iff, mem_cookies]

theorem readCookie_sendable {value : HeaderValue} {cookie : Cookie} (read : readCookie value = some cookie) :
    Sendable cookie := by
  obtain ⟨text, visible, parsed⟩ := Option.bind_eq_some_iff.mp read
  exact parseSetCookie_sendable (toStr_visible visible) parsed

theorem Sound.keep {store : CookieStore} (sound : store.Sound) (header : HeaderValue) : (store.keep header).Sound := by
  unfold CookieStore.keep
  cases read : readCookie header with
  | none => exact sound
  | some cookie =>
      intro name value found
      by_cases same : name = cookie.1
      · subst same
        rw [AList.lookup_insert] at found
        obtain rfl := Option.some.inj found
        exact readCookie_sendable read
      · rw [AList.lookup_insert_ne same] at found
        exact sound name value found

theorem Sound.updateFromHeaders {store : CookieStore} (sound : store.Sound) (setCookies : List HeaderValue) :
    (store.updateFromHeaders setCookies).Sound := by
  induction setCookies generalizing store with
  | nil => exact sound
  | cons header rest kept => exact kept (sound.keep header)

end CookieStore

/-- The value that was received last under a name. -/
def latest (log : List Cookie) (name : List Char) : Option (List Char) := log.reverse.lookup name

theorem latest_append (log more : List Cookie) (name : List Char) :
    latest (log ++ more) name = (latest more name).or (latest log name) := by
  rw [latest, List.reverse_append, List.lookup_append]
  rfl

namespace CookieStore

theorem lookup_keep (store : CookieStore) (header : HeaderValue) (name : List Char) :
    (store.keep header).lookup name = (latest (readCookie header).toList name).or (store.lookup name) := by
  unfold CookieStore.keep
  cases readCookie header with
  | none => rfl
  | some cookie =>
      by_cases same : name = cookie.1
      · subst same
        simp [latest, List.lookup]
      · have other : (name == cookie.1) = false := by simpa using same
        simp [latest, List.lookup, AList.lookup_insert_ne same, other]

/-- The headers of a response replace what they name, the last one counts. -/
theorem lookup_updateFromHeaders (store : CookieStore) (setCookies : List HeaderValue) (name : List Char) :
    (store.updateFromHeaders setCookies).lookup name =
      (latest (setCookies.filterMap readCookie) name).or (store.lookup name) := by
  induction setCookies generalizing store with
  | nil => rfl
  | cons header rest same =>
      have step := same (store.keep header)
      have parts : (header :: rest).filterMap readCookie =
          (readCookie header).toList ++ rest.filterMap readCookie := by
        cases read : readCookie header with
        | none => rw [List.filterMap_cons_none read]; rfl
        | some cookie => rw [List.filterMap_cons_some read]; rfl
      rw [parts, latest_append, Option.or_assoc, ← lookup_keep]
      exact step

end CookieStore

end Store

section Runs

def CookieAction.isCall : CookieAction → Bool
  | .call _ _ => true
  | .respond _ _ => false

/-- The cookies that an action brings. -/
def CookieAction.received : CookieAction → List Cookie
  | .respond _ (some setCookies) => setCookies.filterMap readCookie
  | _ => []

/-- Before any cookie was received a request goes out as it is; later it carries the cookies of its time. -/
def Sends (log : List Cookie) (own sent : Option HeaderValue) : Prop :=
  if log = [] then sent = own else ∃ header, sent = some header ∧ Carries (latest log) header

/-- What a run has made of the service. -/
structure Tracks (actions : List CookieAction) (service : CookieService) : Prop where
  sound : service.store.Sound
  stored : ∀ name, service.store.lookup name = latest (actions.flatMap CookieAction.received) name
  placed : service.calls.length = actions.countP CookieAction.isCall
  sent : ∀ before own order after, actions = before ++ .call own order :: after →
    ∃ request, service.calls[before.countP CookieAction.isCall]? = some request ∧
      Sends (before.flatMap CookieAction.received) own request.cookie

theorem tracks_new : Tracks [] .new where
  sound := by simp [CookieStore.Sound, CookieService.new]
  stored _ := by simp [CookieService.new, latest]
  placed := rfl
  sent before own order after same := by simp at same

/-- A store is empty as long as nothing was received. -/
theorem latest_eq_none_iff {log : List Cookie} : (∀ name, latest log name = none) ↔ log = [] := by
  constructor
  · intro none
    cases log using List.reverseRecOn with
    | nil => rfl
    | append_singleton log cookie =>
        have known := none cookie.1
        simp [latest, List.lookup] at known
  · rintro rfl name
    rfl

/-- The header of a call carries what was received before it. -/
theorem sends_of_stored {store : CookieStore} (sound : store.Sound) {log : List Cookie}
    (stored : ∀ name, store.lookup name = latest log name) (order : HashOrder Cookie) (own : Option HeaderValue) :
    Sends log own ((store.cookieHeaderValue order).or own) := by
  unfold Sends
  have empty : store.cookies = [] ↔ log = [] := by
    rw [← @latest_eq_none_iff log, List.eq_nil_iff_forall_not_mem]
    constructor
    · intro none name
      rw [← stored, Option.eq_none_iff_forall_ne_some]
      exact fun value found => none (name, value) (CookieStore.mem_cookies.mpr found)
    · intro none cookie inside
      have found := CookieStore.mem_cookies.mp inside
      rw [stored, none] at found
      exact nomatch found
  split_ifs with none
  · rw [CookieStore.cookieHeaderValue, if_pos (by simpa using empty.mpr none), Option.none_or]
  · obtain ⟨header, made, carries⟩ := sound.exists_header (fun gone => none (empty.mp gone)) order
    have same : (store.lookup ·) = latest log := funext stored
    rw [same] at carries
    exact ⟨header, by rw [made, Option.some_or], carries⟩

variable {actions : List CookieAction} {service next : CookieService} {action : CookieAction}

/-- An item of a list with one more item is the last one, or one of the items before it. -/
theorem concat_split {Item : Type} {items before after : List Item} {item last : Item}
    (split : items ++ [last] = before ++ item :: after) :
    (before = items ∧ item = last ∧ after = []) ∨
      ∃ shorter, after = shorter ++ [last] ∧ items = before ++ item :: shorter := by
  rcases List.eq_nil_or_concat after with rfl | ⟨shorter, final, rfl⟩
  · obtain ⟨rfl, same⟩ := List.append_inj' split rfl
    exact .inl ⟨rfl, (List.singleton_inj.mp same).symm, rfl⟩
  · rw [List.concat_eq_append, ← List.cons_append, ← List.append_assoc] at split
    obtain ⟨rfl, same⟩ := List.append_inj' split rfl
    exact .inr ⟨shorter, by rw [List.concat_eq_append, List.singleton_inj.mp same], rfl⟩

theorem Tracks.call (tracks : Tracks actions service) (own : Option HeaderValue) (order : HashOrder Cookie) :
    Tracks (actions ++ [.call own order])
      { service with calls := service.calls ++ [⟨(service.store.cookieHeaderValue order).or own, false⟩] } where
  sound := tracks.sound
  stored name := by simpa [CookieAction.received] using tracks.stored name
  placed := by simp [tracks.placed, CookieAction.isCall]
  sent before cookie other after split := by
    rcases concat_split split with ⟨rfl, same, rfl⟩ | ⟨shorter, rfl, earlier⟩
    · obtain ⟨rfl, rfl⟩ := CookieAction.call.inj same.symm
      refine ⟨⟨(service.store.cookieHeaderValue order).or own, false⟩, ?_,
        sends_of_stored tracks.sound tracks.stored order own⟩
      rw [← tracks.placed, List.getElem?_append_right (Nat.le_refl _), Nat.sub_self]
      rfl
    · obtain ⟨request, found, sends⟩ := tracks.sent before cookie other shorter earlier
      exact ⟨request, List.getElem?_append_left (List.getElem?_eq_some_iff.mp found).1 |>.trans found, sends⟩

theorem Tracks.respond (tracks : Tracks actions service) {index : Nat} {cookie : Option HeaderValue}
    (pending : service.calls[index]? = some ⟨cookie, false⟩) (response : Option (List HeaderValue)) :
    Tracks (actions ++ [.respond index response])
      { store := match response with
          | some setCookies => service.store.updateFromHeaders setCookies
          | none => service.store
        calls := service.calls.set index ⟨cookie, true⟩ } where
  sound := by
    cases response with
    | none => exact tracks.sound
    | some setCookies => exact tracks.sound.updateFromHeaders setCookies
  stored name := by
    rw [List.flatMap_append, List.flatMap_singleton, latest_append, ← tracks.stored name]
    cases response with
    | none => rfl
    | some setCookies => exact service.store.lookup_updateFromHeaders setCookies name
  placed := by simp [tracks.placed, CookieAction.isCall]
  sent before own order after split := by
    rcases concat_split split with ⟨_, same, _⟩ | ⟨shorter, rfl, earlier⟩
    · exact nomatch same
    · obtain ⟨request, found, sends⟩ := tracks.sent before own order shorter earlier
      rw [List.getElem?_set]
      split_ifs with same inside
      · subst same
        obtain rfl := Option.some.inj (pending.symm.trans found)
        exact ⟨_, rfl, sends⟩
      · exact absurd (List.getElem?_eq_some_iff.mp (same ▸ found)).1 inside
      · exact ⟨request, found, sends⟩

theorem Tracks.step (tracks : Tracks actions service) (moved : cookieStep service action = some next) :
    Tracks (actions ++ [action]) next := by
  cases action with
  | call own order =>
      obtain rfl := Option.some.inj moved
      exact tracks.call own order
  | respond index response =>
      simp only [cookieStep] at moved
      split at moved
      · rename_i cookie pending
        obtain rfl := Option.some.inj moved
        exact tracks.respond pending response
      · exact nomatch moved

theorem tracks_of_run (ran : cookieMachine.run .new actions = some service) : Tracks actions service := by
  induction actions using List.reverseRecOn generalizing service with
  | nil =>
      obtain rfl : CookieService.new = service := Option.some.inj ran
      exact tracks_new
  | append_singleton actions action earlier =>
      rw [Machine.run_append, Option.bind_eq_some_iff] at ran
      obtain ⟨before, ran, moved⟩ := ran
      refine (earlier ran).step ?_
      simpa [Machine.run_cons, cookieMachine] using moved

/-- However the calls of all clones overlap, each request goes out with the cookies that were received before it: a
header that is read pair by pair as they were received, each name once and with its latest value. A request that no
cookie preceded goes out as the caller made it. -/
theorem requests_carry_latest_cookies (before after : List CookieAction) (own : Option HeaderValue)
    (order : HashOrder Cookie) (final : CookieService)
    (ran : cookieMachine.run .new (before ++ .call own order :: after) = some final) :
    ∃ request, final.calls[before.countP CookieAction.isCall]? = some request ∧
      Sends (before.flatMap CookieAction.received) own request.cookie :=
  (tracks_of_run ran).sent before own order after rfl

def sampleHeader (text : String) : HeaderValue := (HeaderValue.fromStr text.toList).getD ⟨[], rfl⟩

def insertionOrder : HashOrder Cookie := ⟨id, fun items => .refl items⟩

/-- Two calls overlap, and the first one is answered last; the header of one answer is not readable. -/
def sampleBefore : List CookieAction :=
  [.call none insertionOrder, .call none insertionOrder,
   .respond 1 (some [sampleHeader "AWSALB=a; Path=/", sampleHeader "lb = x=y ; Secure", ⟨[200], rfl⟩]),
   .respond 0 (some [sampleHeader " AWSALB=b", sampleHeader "=lost"])]

theorem requests_carry_latest_cookies_sample : ∃ final,
    cookieMachine.run .new (sampleBefore ++ .call none insertionOrder :: [.respond 2 none]) = some final ∧
      ∃ request, final.calls[sampleBefore.countP CookieAction.isCall]? = some request ∧
        Sends (sampleBefore.flatMap CookieAction.received) none request.cookie := by
  cases ran : cookieMachine.run .new (sampleBefore ++ .call none insertionOrder :: [.respond 2 none]) with
  | none => exact absurd ran (by decide)
  | some final => exact ⟨final, rfl, requests_carry_latest_cookies _ _ _ _ final ran⟩

/-- The values that were received last stand for their names. -/
example : sampleBefore.flatMap CookieAction.received =
    [("AWSALB".toList, "a".toList), ("lb".toList, "x=y".toList), ("AWSALB".toList, "b".toList)] := by decide

end Runs

end Spicebench.FlightClient
