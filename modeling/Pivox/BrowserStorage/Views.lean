import Pivox.BrowserStorage.Operations
import Pivox.Js.Uri

/-!
The value of an item as one tab reads it: from its cache, from the storage after a reload, and in
the boot script of that reload.
-/

namespace Pivox.BrowserStorage
open Js

inductive Parsed (V : Type) where
  | value (v : V)
  | null
  | throws
  deriving DecidableEq

/- No cookie, and so no item kept in one, has a name that is empty, starts with a blank, or holds an
equals sign or a semicolon. -/
structure CookieName where
  text : List Char
  head : Char
  tail : List Char
  text_eq : text = head :: tail
  head_notSpace : head.isWhitespace = false
  equals : '=' ∉ text
  semicolon : ';' ∉ text

structure Cookie where
  name : CookieName
  value : List Char
  semicolon : ';' ∉ value

def Cookie.text (c : Cookie) : List Char := c.name.text ++ '=' :: c.value

/- The storages of an origin, as far as a page sees them, and the page's cache of the item:
`some none` is cleared. What getItem throws for is not there. -/
structure Page where
  cookies : List Cookie
  localStorage : Option JsString
  cached : Option (Option JsString)

variable {V : Type}

/- `underPath`: the page is under the path of the item's cookie. -/
structure Item (V : Type) where
  name : CookieName
  parse : JsString → Parsed V
  backend : Backend
  underPath : Bool

def documentCookie : List Cookie → List Char
  | [] => []
  | [c] => c.text
  | c :: cs => c.text ++ ';' :: ' ' :: documentCookie cs

/- split(/;\s*/): after a semicolon the blanks go too. -/
def splitCookies (skipping : Bool) : List Char → List (List Char)
  | [] => [[]]
  | c :: rest =>
    if c = ';' then [] :: splitCookies true rest
    else if skipping && c.isWhitespace then splitCookies true rest
    else
      match splitCookies false rest with
      | [] => [[c]]
      | part :: parts => (c :: part) :: parts

def CookieName.start (name : CookieName) : List Char := name.text ++ ['=']

/- What follows the name in the first of the parts that start with it. -/
def findCookie (name : CookieName) (cookies : List Cookie) : Option (List Char) :=
  ((splitCookies false (documentCookie cookies)).find? (name.start.isPrefixOf ·)).map
    (·.drop name.start.length)

def Item.readCookieRaw (item : Item V) (page : Page) : Option JsString :=
  match page.cached with
  | some cached => cached
  | none =>
    match findCookie item.name page.cookies with
    | none => none
    | some v => if v.isEmpty then none else decodeURIComponent v

def Item.readLocalStorageRaw (_item : Item V) (page : Page) : Option JsString :=
  match page.cached with
  | some cached => cached
  | none => page.localStorage

def Item.parseOrNull (item : Item V) (raw : JsString) : Option V :=
  match item.parse raw with
  | .value v => some v
  | .null | .throws => none

def Item.get (item : Item V) (page : Page) : Option V :=
  let raw :=
    match item.backend with
    | .cookie => item.readCookieRaw page
    | .localStorage => item.readLocalStorageRaw page
  raw.bind item.parseOrNull

def Page.putCookie (page : Page) (c : Cookie) : Page :=
  { page with cookies := c :: page.cookies.filter fun c' => c'.name.text ≠ c.name.text }

def Page.dropCookie (page : Page) (name : CookieName) : Page :=
  { page with cookies := page.cookies.filter fun c' => c'.name.text ≠ name.text }

/- The page sees a cookie that it writes if it is under the cookie's path. -/
def Item.writeCookieRaw (item : Item V) (page : Page) (raw : JsString) : Option Page :=
  match h : encodeURIComponent raw with
  | none => none
  | some value =>
    if item.underPath then some (page.putCookie ⟨item.name, value, semicolon_notMem_encode h⟩)
    else some page

/- `set` throws where the item does not parse the value, and where it cannot be encoded. A write
that localStorage does not carry out is silent. -/
def Item.set (item : Item V) (page : Page) (raw : JsString) (carriedOut : Bool) : Option Page :=
  match item.parse raw with
  | .null | .throws => none
  | .value _ =>
    match item.backend with
    | .cookie => (item.writeCookieRaw page raw).map ({ · with cached := some (some raw) })
    | .localStorage =>
      some { page with
        localStorage := if carriedOut then some raw else page.localStorage
        cached := some (some raw) }

def Item.clear (item : Item V) (page : Page) (carriedOut : Bool) : Page :=
  match item.backend with
  | .cookie =>
    { (if item.underPath then page.dropCookie item.name else page) with cached := some none }
  | .localStorage =>
    { page with
      localStorage := if carriedOut then none else page.localStorage
      cached := some none }

def Page.reload (page : Page) : Page := { page with cached := none }

/- The raw value that the boot script reads. -/
def Item.bootRaw (item : Item V) (page : Page) : Option JsString :=
  match item.backend with
  | .cookie =>
    match findCookie item.name page.cookies with
    | none => none
    | some v => decodeURIComponent v
  | .localStorage => page.localStorage

/- What it calls onBoot with: where `parse` throws, it does not call it. -/
def Item.boot (item : Item V) (page : Page) : Option (Option V) :=
  match item.bootRaw page with
  | none => some none
  | some raw =>
    match item.parse raw with
    | .value v => some (some v)
    | .null => some none
    | .throws => none

inductive Operation where
  | set (raw : JsString) (carriedOut : Bool)
  | clear (carriedOut : Bool)

/- A `set` that throws leaves all as it is. -/
def Item.apply (item : Item V) (page : Page) : Operation → Page
  | .set raw carriedOut => (item.set page raw carriedOut).getD page
  | .clear carriedOut => item.clear page carriedOut

/- The pages after each operation. -/
def Item.history (item : Item V) (page : Page) : List Operation → List Page
  | [] => []
  | op :: ops => item.apply page op :: item.history (item.apply page op) ops

/- Whether the storage carries a write out: the cookies do where the page is under their path. -/
def Item.CarriesOut (item : Item V) (carriedOut : Bool) : Prop :=
  match item.backend with
  | .cookie => item.underPath = true
  | .localStorage => carriedOut = true

/-- A cookie is not set to the empty string, and what the storage does not carry out changes
nothing. -/
def Item.Keeps (item : Item V) (page : Page) : Operation → Prop
  | .set raw carriedOut =>
    ∀ v, item.parse raw = .value v → (item.backend = .cookie → (encodeURIComponent raw).isSome) →
      (item.CarriesOut carriedOut → item.backend = .cookie → raw ≠ []) ∧
        (¬ item.CarriesOut carriedOut → item.get page = some v)
  | .clear carriedOut => ¬ item.CarriesOut carriedOut → item.get page = none

variable {item : Item V} {page : Page} {raw : JsString} {v : V} {carriedOut : Bool}

end Pivox.BrowserStorage
