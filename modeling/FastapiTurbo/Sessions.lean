import Mathlib.Data.List.Chain
import Mathlib.Logic.Equiv.List
import FastapiTurbo.Lib.Codec
import FastapiTurbo.Lib.Dict

/-! `SessionMiddleware` (`middleware/sessions.py`) and a client that keeps its cookie: the
session of a request is read from the signed cookie, handed to the handler as a dict, and
written back into a cookie at the end. -/
namespace FastapiTurbo.Sessions

open Lib List

abbrev Session (ν : Type) := Dict String ν

variable {ν raw : Type}

/-- What the middleware takes from elsewhere.  `simpleCookie` is `SimpleCookie.load`: the
values by name, or `none` where it raises a `CookieError`. -/
structure Codecs (ν raw : Type) where
  json : Codec (Session ν) raw
  base64 : Codec raw (List Char)
  dot_not_mem : ∀ bytes, '.' ∉ base64.encode bytes
  mac : List Char → raw
  simpleCookie : List Char → Option (Dict String (List Char))

structure SessionMiddleware (ν raw : Type) where
  codecs : Codecs ν raw
  sessionCookie : String
  maxAge : Option Nat
  path : String
  sameSite : String
  httpsOnly : Bool
  domain : Option String

structure SetCookie where
  name : String
  value : List Char
  maxAge : Option Nat
  path : String
  domain : Option String
  secure : Bool
  httpOnly : Bool
  sameSite : String

inductive Binding (ν : Type) where
  | kept
  | replaced (session : Session ν)
  | removed

/-- What a handler leaves behind: the content of the dict it was given, the binding, and
whether `call_next` raises. -/
structure Handled (ν : Type) where
  mutated : Session ν
  binding : Binding ν
  raised : Bool

def Handled.session (handled : Handled ν) : Session ν :=
  match handled.binding with
  | .kept => handled.mutated
  | .replaced session => session
  | .removed => []

/-- A request of the client, with its other cookies, which it sends before and after this
one.  Whether it may send the cookie, and store it, depends on the cookie's path, domain
and `Secure`, which are the same in every request. -/
structure Request (ν : Type) where
  began : Nat
  ended : Nat
  before : List (String × List Char)
  after : List (String × List Char)
  sends : Bool
  stores : Bool
  handler : Session ν → Handled ν

def cookieHeader (cookies : List (String × List Char)) : List Char :=
  "; ".toList.intercalate (cookies.map fun cookie => cookie.1.toList ++ '=' :: cookie.2)

structure Visit (ν : Type) where
  start : Session ν
  handled : Handled ν

def Visit.session (visit : Visit ν) : Session ν :=
  visit.handled.session

/-- `call_next` returned, and the session is not empty or the dict of the start is not. -/
def Visit.emits (visit : Visit ν) : Bool :=
  !visit.handled.raised && !(visit.session.isEmpty && visit.handled.mutated.isEmpty)

namespace SessionMiddleware

variable (middleware : SessionMiddleware ν raw)

/-- `_encode` at the time `now`. -/
def encode (data : Session ν) (now : Nat) : List Char :=
  let payload :=
    middleware.codecs.base64.encode (middleware.codecs.json.encode data) ++
      '.' :: Codec.decimal.encode now
  payload ++ '.' :: middleware.codecs.base64.encode (middleware.codecs.mac payload)

/-- The check of `max_age`; `none` for a timestamp that is not a number. -/
def fresh (timestamp : List Char) (now : Nat) : Option Bool :=
  match middleware.maxAge with
  | none => some true
  | some maxAge =>
    (Codec.decimal.decode timestamp).map fun signed => (now : Int) - signed ≤ maxAge

def decode [DecidableEq raw] (cookieVal : List Char) (now : Nat) : Option (Session ν) :=
  match cookieVal.splitOn '.' with
  | [b64, timestamp, sigB64] => do
      let actual ← middleware.codecs.base64.decode sigB64
      if middleware.codecs.mac (b64 ++ '.' :: timestamp) ≠ actual then none
      else
        let fresh ← middleware.fresh timestamp now
        if fresh then (middleware.codecs.base64.decode b64).bind middleware.codecs.json.decode
        else none
  | _ => none

def attachCookie (value : List Char) (clear : Bool) : SetCookie where
  name := middleware.sessionCookie
  value := if clear then [] else value
  maxAge := if clear then some 0 else middleware.maxAge
  path := middleware.path
  domain := middleware.domain.filter (· ≠ "")
  secure := middleware.httpsOnly
  httpOnly := true
  sameSite := middleware.sameSite.toLower.capitalize

/-- The session of a request with this `Cookie` header. -/
def initial [DecidableEq raw] (header : List Char) (now : Nat) : Option (Session ν) :=
  if header.isEmpty then some []
  else (middleware.codecs.simpleCookie header).map fun cookies =>
    ((cookies.get? middleware.sessionCookie).bind (middleware.decode · now)).getD []

/-- `__call__`, with no visit where the header cannot be loaded.  The dict of the start is
looked at again after the handler had it. -/
def call [DecidableEq raw] (request : Request ν) (header : List Char) :
    Option (Visit ν) × Option SetCookie :=
  match middleware.initial header request.began with
  | none => (none, none)
  | some initial =>
    let visit : Visit ν := ⟨initial, request.handler initial⟩
    (some visit,
      if visit.emits then
        some (middleware.attachCookie (middleware.encode visit.session request.ended)
          visit.session.isEmpty)
      else none)

end SessionMiddleware

structure Stored where
  value : List Char
  expires : Option Nat

abbrev Jar := Option Stored

namespace Jar

def send (jar : Jar) (now : Nat) : Option (List Char) :=
  jar.bind fun stored => if stored.expires.all (now < ·) then some stored.value else none

def store (cookie : SetCookie) (now : Nat) : Jar :=
  match cookie.maxAge with
  | some 0 => none
  | some maxAge => some ⟨cookie.value, some (now + maxAge)⟩
  | none => some ⟨cookie.value, none⟩

def after (jar : Jar) (setCookie : Option SetCookie) (now : Nat) : Jar :=
  match setCookie with
  | some cookie => store cookie now
  | none => jar

end Jar

/-- A request as it went: what the client's cookie stood for when it began, what came of
it, and whether a cookie it set was stored. -/
structure Turn (ν : Type) where
  held : Session ν
  visit : Option (Visit ν)
  stores : Bool

section

variable [DecidableEq raw] (middleware : SessionMiddleware ν raw)

def held (jar : Jar) (now : Nat) : Session ν :=
  ((jar.send now).bind (middleware.decode · now)).getD []

def headerOf (request : Request ν) (jar : Jar) : List Char :=
  let own := if request.sends then jar.send request.began else none
  cookieHeader
    (request.before ++ own.toList.map (middleware.sessionCookie, ·) ++ request.after)

def takeTurn (request : Request ν) (jar : Jar) : Turn ν × Jar :=
  let (visit, setCookie) := middleware.call request (headerOf middleware request jar)
  (⟨held middleware jar request.began, visit, request.stores⟩,
    jar.after (if request.stores then setCookie else none) request.ended)

def turns : List (Request ν) → Jar → List (Turn ν)
  | [], _ => []
  | request :: rest, jar =>
    (takeTurn middleware request jar).1 :: turns rest (takeTurn middleware request jar).2

end

/-- Every request begins and ends less than `max_age` after the first one began. -/
def Within (maxAge : Option Nat) (first : Nat) (requests : List (Request ν)) : Prop :=
  ∀ request ∈ requests, ∀ age ∈ maxAge,
    (first ≤ request.began ∧ request.began < first + age) ∧
      first ≤ request.ended ∧ request.ended < first + age

/-- What the client's cookie stands for after the request: with no cookie set, the client
goes on sending the one it has. -/
def Turn.next (turn : Turn ν) : Session ν :=
  match turn.visit with
  | some visit => if visit.emits && turn.stores then visit.session else turn.held
  | none => turn.held

/-- The cookie of each request stands for what the one before left in it. -/
def Linked : Session ν → List (Turn ν) → Prop
  | _, [] => True
  | session, turn :: rest => turn.held = session ∧ Linked turn.next rest

theorem splitOn_encode (middleware : SessionMiddleware ν raw) (data : Session ν) (signed : Nat) :
    (middleware.encode data signed).splitOn '.' =
      [middleware.codecs.base64.encode (middleware.codecs.json.encode data),
        Codec.decimal.encode signed,
        middleware.codecs.base64.encode (middleware.codecs.mac
          (middleware.codecs.base64.encode (middleware.codecs.json.encode data) ++
            '.' :: Codec.decimal.encode signed))] := by
  rw [← splitOn_intercalate '.' ?_ (cons_ne_nil _ _)]
  · simp [SessionMiddleware.encode, List.intercalate]
  · intro part hp
    simp only [mem_cons, not_mem_nil, or_false] at hp
    rcases hp with rfl | rfl | rfl
    · exact middleware.codecs.dot_not_mem _
    · exact Codec.not_mem_decimal rfl signed
    · exact middleware.codecs.dot_not_mem _

variable [DecidableEq raw] {middleware : SessionMiddleware ν raw}

/-- A cookie is read back for `max_age` seconds. -/
theorem decode_encode (data : Session ν) {signed now : Nat}
    (hfresh : ∀ age ∈ middleware.maxAge, now ≤ signed + age) :
    middleware.decode (middleware.encode data signed) now = some data := by
  have hcheck : middleware.fresh (Codec.decimal.encode signed) now = some true := by
    unfold SessionMiddleware.fresh
    cases hage : middleware.maxAge with
    | none => rfl
    | some age =>
      have hle := hfresh age hage
      simp
      omega
  simp [SessionMiddleware.decode, splitOn_encode, hcheck]

/-- At every time of the window the client's cookie stands for this session. -/
def Holds (middleware : SessionMiddleware ν raw) (first : Nat) (jar : Jar) (session : Session ν) :
    Prop :=
  ∀ now, (∀ age ∈ middleware.maxAge, first ≤ now ∧ now < first + age) →
    held middleware jar now = session

theorem holds_none (first : Nat) : Holds middleware first none [] :=
  fun _ _ => rfl

private theorem holds_store {first ended : Nat}
    (hended : ∀ age ∈ middleware.maxAge, first ≤ ended ∧ ended < first + age)
    (session : Session ν) :
    Holds middleware first
      (Jar.store (middleware.attachCookie (middleware.encode session ended) session.isEmpty) ended)
      session := by
  intro now hnow
  cases session with
  | nil => rfl
  | cons entry rest =>
    have hfresh : ∀ age ∈ middleware.maxAge, now ≤ ended + age := fun age hage => by
      have hbefore := hnow age hage
      have hsigned := hended age hage
      omega
    have hsent : (Jar.store (middleware.attachCookie (middleware.encode (entry :: rest) ended)
        (entry :: rest).isEmpty) ended).send now =
        some (middleware.encode (entry :: rest) ended) := by
      cases hage : middleware.maxAge with
      | none => simp [Jar.store, Jar.send, SessionMiddleware.attachCookie, hage]
      | some age =>
        have hbefore := hnow age hage
        have hsigned := hended age hage
        cases age with
        | zero => omega
        | succ age =>
          simp only [Jar.store, Jar.send, SessionMiddleware.attachCookie, hage, isEmpty_cons,
            Option.bind_some, Option.all_some, if_neg Bool.false_ne_true]
          rw [if_pos (decide_eq_true (by omega))]
    rw [held, hsent]
    simp [decode_encode _ hfresh]

/-- One request: the jar stands for what `Turn.next` says. -/
theorem holds_takeTurn {first : Nat} {jar : Jar} {session : Session ν} {request : Request ν}
    (hholds : Holds middleware first jar session)
    (hwithin : ∀ age ∈ middleware.maxAge,
      (first ≤ request.began ∧ request.began < first + age) ∧
        first ≤ request.ended ∧ request.ended < first + age) :
    (takeTurn middleware request jar).1.held = session ∧
      Holds middleware first (takeTurn middleware request jar).2
        (takeTurn middleware request jar).1.next := by
  have hheld := hholds request.began fun age hage => (hwithin age hage).1
  refine ⟨hheld, ?_⟩
  unfold takeTurn SessionMiddleware.call
  cases hinitial : middleware.initial (headerOf middleware request jar) request.began with
  | none => cases hstores : request.stores <;> simpa [Jar.after, Turn.next, hheld] using hholds
  | some start =>
    cases hstores : request.stores with
    | false => simpa [Jar.after, Turn.next, hheld] using hholds
    | true =>
      cases hemits : Visit.emits ⟨start, request.handler start⟩ with
      | false => simpa [Jar.after, Turn.next, hemits, hheld] using hholds
      | true =>
        simp only [hemits, if_true, Jar.after, Turn.next, Bool.and_self]
        exact holds_store (fun age hage => (hwithin age hage).2) _

theorem turns_linked {first : Nat} {requests : List (Request ν)} {jar : Jar}
    {session : Session ν} (hholds : Holds middleware first jar session)
    (hwithin : Within middleware.maxAge first requests) :
    Linked session (turns middleware requests jar) := by
  induction requests generalizing jar session with
  | nil => trivial
  | cons request rest ih =>
    obtain ⟨hrequest, hrest⟩ := forall_mem_cons.1 hwithin
    obtain ⟨hheld, hafter⟩ := holds_takeTurn hholds hrequest
    exact ⟨hheld, ih hafter hrest⟩

/-- The handler is given what the client's cookie stands for. -/
def Turn.Read (turn : Turn ν) : Prop :=
  turn.visit.map Visit.start = some turn.held

/-- A cookie is set and stored, or the session is at the end what it was at the start. -/
def Turn.Kept (turn : Turn ν) : Prop :=
  ∀ visit ∈ turn.visit,
    (visit.emits = true ∧ turn.stores = true) ∨ visit.session = visit.start

/-- Every request is handled, and the session at its start is the one at the end of the
request before. -/
def Continued : Session ν → List (Turn ν) → Prop
  | _, [] => True
  | before, turn :: rest =>
    ∃ visit, turn.visit = some visit ∧ visit.start = before ∧ Continued visit.session rest

section

variable {turn : Turn ν} {rest : List (Turn ν)} {session : Session ν}

omit [DecidableEq raw] in
private theorem Turn.Read.visit (hread : turn.Read) :
    ∃ visit, turn.visit = some visit ∧ visit.start = turn.held :=
  Option.map_eq_some_iff.1 hread

theorem Turn.Read.next_eq_iff (hread : turn.Read) {visit : Visit ν}
    (hvisit : turn.visit = some visit) : turn.next = visit.session ↔ turn.Kept := by
  have hstart : visit.start = turn.held := by
    obtain ⟨other, hother, hheld⟩ := hread.visit
    exact Option.some.inj (hvisit.symm.trans hother) ▸ hheld
  have hkept : turn.Kept ↔ (visit.emits && turn.stores) = true ∨ visit.session = turn.held := by
    simp [Turn.Kept, hvisit, hstart]
  rw [hkept, Turn.next, hvisit]
  by_cases hwrites : (visit.emits && turn.stores) = true
  · simp only [hwrites, if_true, true_or]
  · simp only [if_neg hwrites]
    rw [or_iff_right hwrites, eq_comm]

private theorem continued_cons_of_read (hread : turn.Read) {visit : Visit ν}
    (hvisit : turn.visit = some visit) (before : Session ν) :
    Continued before (turn :: rest) ↔ turn.held = before ∧ Continued visit.session rest := by
  obtain ⟨other, hother, hstart⟩ := hread.visit
  cases hvisit.symm.trans hother
  rw [Continued, ← hstart]
  constructor
  · rintro ⟨found, hfound, hbefore, hrest⟩
    cases hvisit.symm.trans hfound
    exact ⟨hbefore, hrest⟩
  · rintro ⟨hbefore, hrest⟩
    exact ⟨visit, hvisit, hbefore, hrest⟩

theorem Linked.continued_iff_kept {turns : List (Turn ν)} (hlinked : Linked session turns)
    (hread : ∀ turn ∈ turns, turn.Read) :
    Continued session turns ↔ ∀ turn ∈ turns.dropLast, turn.Kept := by
  induction turns generalizing session with
  | nil => simp [Continued]
  | cons turn rest ih =>
    obtain ⟨hheld, hrest⟩ := hlinked
    obtain ⟨hturn, hreads⟩ := forall_mem_cons.1 hread
    obtain ⟨visit, hvisit, hstart⟩ := hturn.visit
    rw [continued_cons_of_read hturn hvisit, and_iff_right hheld]
    cases rest with
    | nil => simp [Continued]
    | cons after rest =>
      -- The next request reads what this one left in the cookie.
      obtain ⟨hafter, -⟩ := forall_mem_cons.1 hreads
      obtain ⟨afterVisit, hafterVisit, -⟩ := hafter.visit
      have hcontinued := ih hrest hreads
      rw [continued_cons_of_read hafter hafterVisit, and_iff_right hrest.1] at hcontinued
      rw [continued_cons_of_read hafter hafterVisit, hrest.1, hturn.next_eq_iff hvisit,
        hcontinued, dropLast_cons_cons, forall_mem_cons]

theorem Linked.read_of_continued {turns : List (Turn ν)} (hlinked : Linked session turns)
    (hkept : ∀ turn ∈ turns.dropLast, turn.Kept) (hcontinued : Continued session turns) :
    ∀ turn ∈ turns, turn.Read := by
  induction turns generalizing session with
  | nil => simp
  | cons turn rest ih =>
    obtain ⟨hheld, hrest⟩ := hlinked
    obtain ⟨visit, hvisit, hstart, hafter⟩ := hcontinued
    have hread : turn.Read := by rw [Turn.Read, hvisit, Option.map_some, hstart, hheld]
    refine forall_mem_cons.2 ⟨hread, ?_⟩
    cases rest with
    | nil => simp
    | cons after rest =>
      rw [dropLast_cons_cons, forall_mem_cons] at hkept
      rw [← (hread.next_eq_iff hvisit).2 hkept.1] at hafter
      exact ih hrest hkept.2 hafter

end

def numbering : Codec (Session Nat) Nat where
  encode := fun session =>
    Encodable.encode (session.map fun entry => (entry.1.toList.map Char.toNat, entry.2))
  decode := fun number =>
    (Encodable.decode number : Option (List (List Nat × Nat))).map fun entries =>
      entries.map fun entry => (String.ofList (entry.1.map Char.ofNat), entry.2)
  decode_encode := fun session => by
    simp [Function.comp_def]

/-- The one cookie of a header that has no other. -/
def loadSingle (header : List Char) : Option (Dict String (List Char)) :=
  some [(String.ofList (header.takeWhile (· ≠ '=')), (header.dropWhile (· ≠ '=')).drop 1)]

def plainSessions : SessionMiddleware Nat Nat where
  codecs :=
    { json := numbering
      base64 := Codec.decimal
      dot_not_mem := Codec.not_mem_decimal rfl
      mac := List.length
      simpleCookie := loadSingle }
  sessionCookie := "session"
  maxAge := some (14 * 24 * 3600)
  path := "/"
  sameSite := "lax"
  httpsOnly := false
  domain := none

def plainRequest (began : Nat) (handler : Session Nat → Handled Nat) : Request Nat :=
  ⟨began, began + 1, [], [], true, true, handler⟩

def login : Request Nat :=
  plainRequest 0 fun session => ⟨session.set "user" 42, .kept, false⟩

def clearSession : Request Nat :=
  plainRequest 10 fun _ => ⟨[], .kept, false⟩

def replaceSession : Request Nat :=
  plainRequest 10 fun session => ⟨session, .replaced [], false⟩

def readSession : Request Nat :=
  plainRequest 20 fun session => ⟨session, .kept, false⟩

/-- `plainSessions` reads back what the client sends. -/
theorem plainSessions_initial (began : Nat) (handler : Session Nat → Handled Nat) (jar : Jar) :
    plainSessions.initial (headerOf plainSessions (plainRequest began handler) jar) began =
      some (held plainSessions jar began) := by
  unfold headerOf held
  cases hsent : jar.send began with
  | none => simp [plainRequest, hsent, cookieHeader, SessionMiddleware.initial]
  | some value =>
    simp [plainRequest, hsent, cookieHeader, SessionMiddleware.initial, plainSessions, loadSingle,
      Dict.get?]

/-- The requests with the session kept on the server, and carried over as the cookies
do it. -/
def replay : List (Request Nat) → Session Nat → List (Turn Nat)
  | [], _ => []
  | request :: rest, session =>
    let turn : Turn Nat := ⟨session, some ⟨session, request.handler session⟩, request.stores⟩
    turn :: replay rest turn.next

theorem turns_eq_replay {requests : List (Request Nat)} {jar : Jar} {session : Session Nat}
    (hplain : ∀ request ∈ requests, request = plainRequest request.began request.handler)
    (hlinked : Linked session (turns plainSessions requests jar)) :
    turns plainSessions requests jar = replay requests session := by
  induction requests generalizing jar session with
  | nil => rfl
  | cons request rest ih =>
    obtain ⟨hrequest, hrest⟩ := forall_mem_cons.1 hplain
    obtain ⟨hheld, hafter⟩ := hlinked
    have hturn : (takeTurn plainSessions request jar).1 =
        ⟨session, some ⟨session, request.handler session⟩, request.stores⟩ := by
      have hinitial := plainSessions_initial request.began request.handler jar
      rw [← hrequest, show held plainSessions jar request.began = session from hheld] at hinitial
      simp only [takeTurn, SessionMiddleware.call, hinitial]
      rw [show held plainSessions jar request.began = session from hheld]
    rw [turns, replay, hturn, ih hrest (hturn ▸ hafter)]

end FastapiTurbo.Sessions
