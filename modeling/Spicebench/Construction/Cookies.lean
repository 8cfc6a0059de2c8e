/-
This file embeds the cookies of the Flight client: the calls of all clones of a service share one store, whose cookies
they send and which keeps the cookies of the responses.
-/

import Spicebench.Construction.Duration
import Spicebench.Library.HashGroups
import Spicebench.Library.KeyedMap
import Spicebench.Library.Machine
import Spicebench.Library.Utf8

namespace Spicebench.FlightClient

open DurationParse (trim)
open Library

def isHeaderByte (byte : UInt8) : Bool := (32 ≤ byte && byte != 127) || byte == 9

/-- The bytes of a header value are checked when it is made. -/
structure HeaderValue where
  bytes : List UInt8
  valid : bytes.all isHeaderByte = true

def isVisibleAscii (byte : UInt8) : Bool := (32 ≤ byte && byte < 127) || byte == 9

def HeaderValue.fromStr (text : List Char) : Option HeaderValue :=
  if valid : (encode text).all isHeaderByte = true then some ⟨encode text, valid⟩ else none

/-- Only values of visible ASCII characters are read as texts. -/
def HeaderValue.toStr (value : HeaderValue) : Option (List Char) :=
  if value.bytes.all isVisibleAscii then some (value.bytes.map fun byte => Char.ofNat byte.toNat) else none

def splitOnce (mark : Char) (text : List Char) : Option (List Char × List Char) :=
  match text.dropWhile (· ≠ mark) with
  | [] => none
  | _ :: rest => some (text.takeWhile (· ≠ mark), rest)

abbrev Cookie := List Char × List Char

/-- The attributes behind the first `;` are ignored. -/
def parseSetCookie (value : List Char) : Option Cookie := do
  let entry := trim (value.takeWhile (· ≠ ';'))
  let (name, val) ← splitOnce '=' entry
  let name := trim name
  if name.isEmpty then none
  else some (name, trim val)

def readCookie (value : HeaderValue) : Option Cookie := value.toStr.bind parseSetCookie

abbrev CookieStore := KeyedMap (List Char) (List Char)

namespace CookieStore

def cookies (store : CookieStore) : List Cookie := store.entries.map fun entry => (entry.1, entry.2)

/-- The cookies are written in the order in which the hash map yields them. -/
def cookieHeaderValue (store : CookieStore) (order : HashOrder Cookie) : Option HeaderValue :=
  if store.cookies.isEmpty then none
  else
    HeaderValue.fromStr (List.intercalate [';', ' ']
      ((order.arrange store.cookies).map fun (name, value) => name ++ '=' :: value))

def keep (store : CookieStore) (value : HeaderValue) : CookieStore :=
  match readCookie value with
  | some (name, val) => store.insert name val
  | none => store

def updateFromHeaders (store : CookieStore) (setCookies : List HeaderValue) : CookieStore := setCookies.foldl keep store

end CookieStore

/-- A request with its `Cookie` header, and whether its response has been handled. -/
structure CookieCall where
  cookie : Option HeaderValue
  answered : Bool

structure CookieService where
  store : CookieStore
  calls : List CookieCall

def CookieService.new : CookieService := ⟨∅, []⟩

/-- A caller may have set a `Cookie` header; a response carries its `Set-Cookie` headers, or the inner call fails. -/
inductive CookieAction where
  | call (cookie : Option HeaderValue) (order : HashOrder Cookie)
  | respond (index : Nat) (response : Option (List HeaderValue))

/-- The lock of the store makes each reading and each update one step; the calls may overlap in any way. -/
def cookieStep (service : CookieService) : CookieAction → Option CookieService
  | .call cookie order =>
      some { service with calls := service.calls ++ [⟨(service.store.cookieHeaderValue order).or cookie, false⟩] }
  | .respond index response =>
      match service.calls[index]? with
      | some ⟨cookie, false⟩ =>
          some {
            store := match response with
              | some setCookies => service.store.updateFromHeaders setCookies
              | none => service.store
            calls := service.calls.set index ⟨cookie, true⟩ }
      | _ => none

def cookieMachine : Machine CookieService CookieAction where
  step := cookieStep
  admits _ := True

end Spicebench.FlightClient
