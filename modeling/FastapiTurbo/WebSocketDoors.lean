import FastapiTurbo.RouterSockets

/-! The two doors to a WebSocket route: in process `_asgi_ws_door` scans the compiled
expressions of `_ws_door_table` in the order of registration (`applications.py`), on
the socket the table of `build_router` looks for the most specific path
(`router.rs`).  The scope of the one has the path of the request line as the ASGI
server decodes it. -/
namespace FastapiTurbo.WebSocketDoors

open Lib RouterTable RouterConflicts Option
  RouterAnswers RouterSockets

variable {σ : Type}

structure WebSocketRoute (σ : Type) where
  path : Path
  endpoint : σ

inductive Piece where
  | char (char : Char)
  | segment (name : Path)
  | rest (name : Path)
  deriving DecidableEq

def parameter (inner : Path) : Option Piece :=
  let name := inner.takeWhile (· ≠ ':')
  match inner.dropWhile (· ≠ ':') with
  | [] => if name = [] then none else some (.segment name)
  | _ :: converter =>
    if name = [] ∨ converter = [] then none
    else if converter = "path".toList then some (.rest name)
    else some (.segment name)

/-- The loop over `finditer`; inside braces, with the characters read there.  Braces
without a parameter between them are escaped like the rest of the path. -/
def piecesFrom : Option Path → Path → List Piece
  | none, [] => []
  | none, char :: rest =>
    if char = '{' then piecesFrom (some []) rest else .char char :: piecesFrom none rest
  | some inner, [] => ('{' :: inner).map .char
  | some inner, char :: rest =>
    if char = '{' then ('{' :: inner).map .char ++ piecesFrom (some []) rest
    else if char = '}' then
      match parameter inner with
      | some piece => piece :: piecesFrom none rest
      | none => ('{' :: inner ++ ['}']).map .char ++ piecesFrom none rest
    else piecesFrom (some (inner ++ [char])) rest

def pieces (path : Path) : List Piece :=
  piecesFrom none path

def Piece.group : Piece → Option Path
  | .char _ => none
  | .segment name => some name
  | .rest name => some name

/-- `regex.match(path)` for the expression between `^` and `$`; the latter also
matches before a newline that ends the path. -/
def expressionMatches : List Piece → Path → Bool
  | [], path => path = [] || path = ['\n']
  | _ :: _, [] => false
  | .char char :: pieces, first :: path => first = char && expressionMatches pieces path
  | .segment name :: pieces, first :: path =>
    first ≠ '/' &&
      (expressionMatches pieces path || expressionMatches (.segment name :: pieces) path)
  | .rest name :: pieces, first :: path =>
    first ≠ '\n' &&
      (expressionMatches pieces path || expressionMatches (.rest name :: pieces) path)

section Doors

variable (isIdentifier : Path → Bool) (decode : Path → Path)

/-- `re.compile`, which wants the names of groups to be identifiers and distinct. -/
def compile (path : Path) : Option (List Piece) :=
  let groups := (pieces path).filterMap Piece.group
  if groups.all isIdentifier && groups.Nodup then some (pieces path) else none

def wsDoorTable : List (WebSocketRoute σ) → Option (List (List Piece × σ))
  | [] => some []
  | route :: rest =>
    if route.path = [] then wsDoorTable rest
    else do
      let expression ← compile isIdentifier route.path
      let table ← wsDoorTable rest
      some ((expression, route.endpoint) :: table)

/-- The endpoint that `_asgi_ws_door` finds for the decoded path. -/
def asgiWsDoor (routes : List (WebSocketRoute σ)) (raw : Path) : Option σ :=
  (wsDoorTable isIdentifier routes).bind fun table =>
    (table.find? fun entry => expressionMatches entry.1 (decode raw)).map Prod.snd

/-- The route as `build_router` is given it; `none` where axum does not take its
path. -/
def WebSocketRoute.routeInfo (route : WebSocketRoute σ) : Option (RouteInfo σ) :=
  if hpath : (parsePath (convertPath route.path)).isSome = true then
    some ⟨route.path, [.get], true, route.endpoint, hpath, List.nodup_singleton _⟩
  else none

def socketDoor (routes : List (WebSocketRoute σ)) (path : Path) : Option σ :=
  (routes.mapM WebSocketRoute.routeInfo).bind fun infos => upgradedBy infos path

def WebSocketRoute.accepts (route : WebSocketRoute σ) (path : Path) : Bool :=
  route.path ≠ [] && expressionMatches (pieces route.path) path

/-- The first route whose expression matches, in a table that compiles. -/
structure DoorPicks (routes : List (WebSocketRoute σ)) (path : Path)
    (chosen : WebSocketRoute σ) : Prop where
  compiles : ∀ route ∈ routes, route.path ≠ [] → (compile isIdentifier route.path).isSome = true
  matched : chosen.accepts path = true
  first : ∃ earlier later, routes = earlier ++ chosen :: later ∧
    ∀ other ∈ earlier, other.accepts path = false

/-- The last route of the most specific path that accepts the request, where axum takes
the paths. -/
def SocketPicks (routes : List (WebSocketRoute σ)) (path : Path) (chosen : RouteInfo σ) : Prop :=
  ∃ infos, routes.mapM WebSocketRoute.routeInfo = some infos ∧ Upgrades infos path chosen

private theorem compile_eq_some {path : Path} {expression : List Piece}
    (hcompile : compile isIdentifier path = some expression) : expression = pieces path := by
  simp only [compile] at hcompile
  split at hcompile
  · exact (Option.some.inj hcompile).symm
  · simp at hcompile

theorem wsDoorTable_of_compiles {routes : List (WebSocketRoute σ)}
    (hcompiles : ∀ route ∈ routes, route.path ≠ [] →
      (compile isIdentifier route.path).isSome = true) :
    ∃ table, wsDoorTable isIdentifier routes = some table ∧ ∀ path,
      (table.find? fun entry => expressionMatches entry.1 path).map Prod.snd =
        (routes.find? fun route => route.accepts path).map WebSocketRoute.endpoint := by
  induction routes with
  | nil => exact ⟨[], rfl, fun _ => rfl⟩
  | cons route rest ih =>
    obtain ⟨table, htable, hsame⟩ :=
      ih fun other hmem => hcompiles other (List.mem_cons_of_mem route hmem)
    by_cases hempty : route.path = []
    · refine ⟨table, by simpa [wsDoorTable, hempty] using htable, fun path => ?_⟩
      have haccepts : route.accepts path = false := by simp [WebSocketRoute.accepts, hempty]
      rw [hsame, List.find?_cons, haccepts]
    · obtain ⟨expression, hexpression⟩ :=
        isSome_iff_exists.1 (hcompiles route List.mem_cons_self hempty)
      refine ⟨(expression, route.endpoint) :: table, ?_, fun path => ?_⟩
      · simp [wsDoorTable, hempty, hexpression, htable]
      · have haccepts : route.accepts path = expressionMatches expression path := by
          simp [WebSocketRoute.accepts, hempty, compile_eq_some isIdentifier hexpression]
        rw [List.find?_cons, List.find?_cons, haccepts]
        cases expressionMatches expression path with
        | true => rfl
        | false => exact hsame path

private theorem compiles_of_wsDoorTable {routes : List (WebSocketRoute σ)}
    {table : List (List Piece × σ)} (htable : wsDoorTable isIdentifier routes = some table) :
    ∀ route ∈ routes, route.path ≠ [] → (compile isIdentifier route.path).isSome = true := by
  induction routes generalizing table with
  | nil => simp
  | cons route rest ih =>
    by_cases hempty : route.path = []
    · rw [wsDoorTable, if_pos hempty] at htable
      simpa [hempty] using ih htable
    · rw [wsDoorTable, if_neg hempty] at htable
      obtain ⟨expression, hexpression, hrest⟩ := bind_eq_some_iff.1 htable
      obtain ⟨later, hlater, -⟩ := bind_eq_some_iff.1 hrest
      simpa [hempty, hexpression] using ih hlater

theorem asgiWsDoor_iff (routes : List (WebSocketRoute σ)) (raw : Path) (endpoint : σ) :
    asgiWsDoor isIdentifier decode routes raw = some endpoint ↔
      ∃ chosen, DoorPicks isIdentifier routes (decode raw) chosen ∧
        chosen.endpoint = endpoint := by
  constructor
  · intro hdoor
    obtain ⟨table, htable, hfind⟩ := bind_eq_some_iff.1 hdoor
    have hcompiles := compiles_of_wsDoorTable isIdentifier htable
    obtain ⟨compiled, hcompiled, hsame⟩ := wsDoorTable_of_compiles isIdentifier hcompiles
    rw [Option.some.inj (htable.symm.trans hcompiled), hsame] at hfind
    obtain ⟨chosen, hchosen, rfl⟩ := map_eq_some_iff.1 hfind
    obtain ⟨hmatched, earlier, later, hroutes, hearlier⟩ :=
      List.find?_eq_some_iff_append.1 hchosen
    exact ⟨chosen, ⟨hcompiles, hmatched, earlier, later, hroutes, by simpa using hearlier⟩, rfl⟩
  · rintro ⟨chosen, ⟨hcompiles, hmatched, earlier, later, hroutes, hearlier⟩, rfl⟩
    obtain ⟨table, htable, hsame⟩ := wsDoorTable_of_compiles isIdentifier hcompiles
    have hfind : (routes.find? fun route => route.accepts (decode raw)) = some chosen :=
      List.find?_eq_some_iff_append.2
        ⟨hmatched, earlier, later, hroutes, by simpa using hearlier⟩
    rw [asgiWsDoor, htable, bind_some, hsame, hfind]
    rfl

private theorem socketDoor_iff (routes : List (WebSocketRoute σ)) (path : Path) (endpoint : σ) :
    socketDoor routes path = some endpoint ↔
      ∃ chosen, SocketPicks routes path chosen ∧ chosen.state = endpoint := by
  rw [socketDoor, bind_eq_some_iff]
  constructor
  · rintro ⟨infos, hinfos, hupgraded⟩
    obtain ⟨chosen, hchosen, hstate⟩ := upgrades_of_upgradedBy hupgraded
    exact ⟨chosen, ⟨infos, hinfos, hchosen⟩, hstate⟩
  · rintro ⟨chosen, ⟨infos, hinfos, hchosen⟩, rfl⟩
    exact ⟨infos, hinfos, upgradedBy_of_upgrades hchosen⟩

/-- The doors agree on a request exactly if neither picks a route, or the first whose
expression matches the decoded path has the endpoint of the last one of the most
specific path that accepts the raw one. -/
theorem websocket_doors_agree_iff (routes : List (WebSocketRoute σ)) (raw : Path) :
    asgiWsDoor isIdentifier decode routes raw = socketDoor routes raw ↔
      ((∀ chosen, ¬DoorPicks isIdentifier routes (decode raw) chosen) ∧
        ∀ chosen, ¬SocketPicks routes raw chosen) ∨
      ∃ one other, DoorPicks isIdentifier routes (decode raw) one ∧
        SocketPicks routes raw other ∧ one.endpoint = other.state := by
  have hdoor := asgiWsDoor_iff isIdentifier decode routes raw
  have hsocket := socketDoor_iff routes raw
  constructor
  · intro hsame
    cases hfound : asgiWsDoor isIdentifier decode routes raw with
    | none =>
      rw [hsame] at hfound
      refine .inl ⟨fun chosen hchosen => ?_, fun chosen hchosen => ?_⟩
      · simp [(hdoor _).2 ⟨chosen, hchosen, rfl⟩, hfound] at hsame
      · simp [(hsocket _).2 ⟨chosen, hchosen, rfl⟩] at hfound
    | some endpoint =>
      obtain ⟨one, hone, hendpoint⟩ := (hdoor endpoint).1 hfound
      obtain ⟨other, hother, hstate⟩ := (hsocket endpoint).1 (hsame ▸ hfound)
      exact .inr ⟨one, other, hone, hother, hendpoint.trans hstate.symm⟩
  · rintro (⟨hnoDoor, hnoSocket⟩ | ⟨one, other, hone, hother, hendpoint⟩)
    · cases hfound : asgiWsDoor isIdentifier decode routes raw with
      | some endpoint =>
        obtain ⟨chosen, hchosen, -⟩ := (hdoor endpoint).1 hfound
        exact absurd hchosen (hnoDoor chosen)
      | none =>
        cases hupgraded : socketDoor routes raw with
        | some endpoint =>
          obtain ⟨chosen, hchosen, -⟩ := (hsocket endpoint).1 hupgraded
          exact absurd hchosen (hnoSocket chosen)
        | none => rfl
    · rw [(hdoor _).2 ⟨one, hone, rfl⟩, (hsocket _).2 ⟨other, hother, rfl⟩, hendpoint]

end Doors

def roomSocket : WebSocketRoute Nat := ⟨"/ws/{room}".toList, 0⟩

def adminSocket : WebSocketRoute Nat := ⟨"/ws/admin".toList, 1⟩

/-- A parameter that is registered before a literal wins in process and loses on the
socket, and one whose value has an escaped slash is found on the socket alone. -/
theorem admin_socket_shadowed_in_process :
    (asgiWsDoor (fun name => name.all Char.isAlpha) unquote [roomSocket, adminSocket]
        "/ws/admin".toList = some 0 ∧
      socketDoor [roomSocket, adminSocket] "/ws/admin".toList = some 1) ∧
    asgiWsDoor (fun name => name.all Char.isAlpha) unquote [roomSocket]
        "/ws/a%2Fb".toList = none ∧
      socketDoor [roomSocket] "/ws/a%2Fb".toList = some 0 := by
  decide +kernel

end FastapiTurbo.WebSocketDoors
