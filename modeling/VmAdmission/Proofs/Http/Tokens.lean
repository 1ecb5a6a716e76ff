import VmAdmission.Proofs.Http.Headers
import VmAdmission.Proofs.Http.Orders
import VmAdmission.Proofs.Text.Blank

namespace VmAdmission.Http

/-- The word before a token. -/
def bearerScheme : List UInt8 := Utf8.encode "Bearer "

/-- The value of a header shows a token: it is visible ASCII, the word and then something that is not
blank. -/
def IsBearer (value : List UInt8) : Prop :=
  Readable value ∧ ∃ token, value = bearerScheme ++ token ∧ ∃ b ∈ token, b ≠ 0x20 ∧ b ≠ 0x09

theorem bearerScheme_chars : bearerScheme.map byteChar = "Bearer ".toList := by
  decide +kernel

/-- A text begins with a word exactly if its bytes do. -/
theorem startsWith_byteText_iff {word : String} {bytes value : List UInt8}
    (chars : bytes.map byteChar = word.toList) :
    (byteText value).startsWith word ↔ ∃ rest, value = bytes ++ rest := by
  rw [String.startsWith_string_iff, byteText, String.toList_ofList, ← chars]
  constructor
  · rintro ⟨rest, cut⟩
    obtain ⟨front, back, rfl, same, -⟩ := List.map_eq_append_iff.mp cut.symm
    exact ⟨back, by rw [List.map_injective_iff.mpr byteChar_injective same]⟩
  · rintro ⟨rest, rfl⟩
    exact ⟨rest.map byteChar, List.map_append.symm⟩

theorem drop_byteText {word : String} {bytes : List UInt8}
    (chars : bytes.map byteChar = word.toList) (rest : List UInt8) :
    (byteText (bytes ++ rest)).toList.drop word.length = rest.map byteChar := by
  rw [byteText, String.toList_ofList, List.map_append, ← String.length_toList, ← chars,
    List.drop_left]

/-- What follows the word is blank exactly if it has only spaces and tabs. -/
theorem trimBlanks_token {token : List UInt8} (readable : Readable token) :
    trimBlanks (String.ofList (token.map byteChar)) ≠ "" ↔ ∃ b ∈ token, b ≠ 0x20 ∧ b ≠ 0x09 := by
  rw [Ne, trimBlanks_eq_empty_iff, String.toList_ofList]
  constructor
  · intro written
    by_contra blank
    refine written fun c member => ?_
    obtain ⟨b, inside, rfl⟩ := List.mem_map.mp member
    rw [isBlank_byteChar (readable b inside)]
    by_contra other
    exact blank ⟨b, inside, not_or.mp other⟩
  · rintro ⟨b, inside, other⟩ blank
    have here := blank _ (List.mem_map_of_mem inside)
    exact (not_or.mpr other) ((isBlank_byteChar (readable b inside)).mp here)

/-- The first header for it shows a token. -/
def Request.ShowsToken (request : Request) : Prop :=
  ∃ value, request.firstValue? "authorization" = some value ∧ IsBearer value

theorem bearerToken?_isSome_iff_text {request : Request} :
    (bearerToken? request).isSome ↔ ∃ text, request.header? "authorization" = some text ∧
      text.startsWith "Bearer " ∧
      trimBlanks (String.ofList (text.toList.drop "Bearer ".length)) ≠ "" := by
  unfold bearerToken?
  cases request.header? "authorization" with
  | none =>
    constructor
    · intro found
      cases found
    · rintro ⟨_, ⟨⟩, _⟩
  | some text =>
    simp only [Option.bind_eq_bind, Option.bind_some, Option.some.injEq, exists_eq_left']
    by_cases begins : text.startsWith "Bearer "
    · rw [if_pos begins, and_iff_right begins]
      split <;> simp only [*, Option.isSome_none, Option.isSome_some, Bool.false_eq_true, ne_eq,
        not_true_eq_false, not_false_eq_true]
    · rw [if_neg begins]
      constructor
      · intro found
        cases found
      · rintro ⟨other, -⟩
        exact absurd other begins

/-- A token is found exactly if the request shows one. -/
theorem bearerToken?_isSome_iff {request : Request} :
    (bearerToken? request).isSome ↔ request.ShowsToken := by
  rw [bearerToken?_isSome_iff_text]
  constructor
  · rintro ⟨text, header, begins, written⟩
    obtain ⟨value, first, readable, rfl⟩ := Request.header?_eq_some_iff.mp header
    obtain ⟨token, rfl⟩ := (startsWith_byteText_iff bearerScheme_chars).mp begins
    have rest : Readable token := fun b member => readable b (List.mem_append_right _ member)
    rw [drop_byteText bearerScheme_chars, trimBlanks_token rest] at written
    exact ⟨_, first, readable, token, rfl, written⟩
  · rintro ⟨_, first, readable, token, rfl, written⟩
    have rest : Readable token := fun b member => readable b (List.mem_append_right _ member)
    refine ⟨_, Request.header?_eq_some_iff.mpr ⟨_, first, readable, rfl⟩,
      (startsWith_byteText_iff bearerScheme_chars).mpr ⟨token, rfl⟩, ?_⟩
    rw [drop_byteText bearerScheme_chars, trimBlanks_token rest]
    exact written

/-- The header is not the one for the token. -/
def isApart (header : String × List UInt8) : Bool :=
  !Ascii.alike header.1 "authorization"

/-- The requests say the same, but for the token and how it is shown. -/
structure Request.AlikeButToken (request other : Request) : Prop where
  method : other.method = request.method
  target : other.target = request.target
  body : other.body = request.body
  headers : other.headers.filter isApart = request.headers.filter isApart

namespace Request.AlikeButToken

variable {request other : Request} (alike : request.AlikeButToken other)

theorem find?_apart {name : String} (apart : Ascii.alike name "authorization" = false)
    (headers : List (String × List UInt8)) :
    (headers.filter isApart).find? (fun h => Ascii.alike h.1 name) =
      headers.find? fun h => Ascii.alike h.1 name := by
  rw [List.find?_filter]
  refine congrArg (List.find? · headers) (funext fun header => ?_)
  by_cases named : Ascii.alike header.1 name
  · have kept : isApart header := by
      simp only [Ascii.alike, beq_iff_eq, isApart] at named apart ⊢
      rw [named, apart, Bool.not_false]
    simp [named, kept]
  · simp [named]

include alike

theorem header?_eq {name : String} (apart : Ascii.alike name "authorization" = false) :
    other.header? name = request.header? name := by
  simp only [header?, ← find?_apart apart other.headers, alike.headers,
    find?_apart apart request.headers]

theorem requestScope_eq : requestScope other = requestScope request := by
  have workspace : other.header? "x-workspace-id" = request.header? "x-workspace-id" :=
    alike.header?_eq (by decide)
  have datacenter : other.header? "x-datacenter-id" = request.header? "x-datacenter-id" :=
    alike.header?_eq (by decide)
  simp only [requestScope, scopeId, workspace, datacenter]

theorem readBody_eq {α : Type} (operation : Operation) (decoder : Json.Decoder α) :
    readBody other operation decoder = readBody request operation decoder := by
  simp only [readBody, alike.body]

theorem dispatch_eq (app : App) (store : Store) (route : Route) :
    app.dispatch other store route = app.dispatch request store route := by
  cases route with
  | health | requests | request => rfl
  | machines | machine | action =>
    simp only [App.dispatch, App.deploy, App.operate, alike.method, alike.requestScope_eq,
      alike.readBody_eq]

end Request.AlikeButToken

namespace App

variable {request : Request} {route : Route}

/-- Below its root the interface admits exactly the requests that show a token. All others are
refused alike, whatever their method, headers and body are, with nothing looked up or changed. Of
two requests that show a token and else say the same, the answers, the lookups and what they change
are the same, with other stamps too but for the rows that bear them. -/
theorem token_admits (app : App) (store : Store)
    (found : Route.ofTarget? request.target = some route) (inside : route ≠ .health) :
    (¬ request.ShowsToken →
      let served := app.handle request store
      served.response.status = 401 ∧
        served.response.content = .failure
          ⟨.generic .unauthorized, ⟨.unauthorized, 401, "missing bearer token"⟩⟩ ∧
        served.lookups = [] ∧ served.store = store) ∧
    (request.ShowsToken →
      (∀ other, request.AlikeButToken other → other.ShowsToken →
        app.handle other store = app.handle request store) ∧
      (store.ledger.Sound →
        (store.OnlyStamped fun store =>
          ((app.handle request store).response, (app.handle request store).store.ledger)) ∧
        ∀ stamps, (app.handle request (store.withStamps stamps)).lookups =
          (app.handle request store).lookups)) := by
  refine ⟨fun hidden => ?_, fun shown =>
    ⟨fun other alike also => ?_, handle_stamped app request⟩⟩
  · intro served
    have unwelcome : ¬ (route = .health ∨ (bearerToken? request).isSome) :=
      not_or.mpr ⟨inside, bearerToken?_isSome_iff.not.mpr hidden⟩
    obtain ⟨allow, refused⟩ : ∃ allow, app.atRoute request route store =
        respond { unauthorized with allow } store := by
      by_cases listed : request.method ∈ route.methods
      · exact ⟨none, atRoute_unwelcome listed unwelcome⟩
      · exact ⟨some route.methods, by simp only [atRoute, if_neg listed, if_neg unwelcome]⟩
    have answer : served = (respond { unauthorized with allow } store).sent
        (request.method = .head) := by
      rw [← refused]
      exact handle_at found
    rw [answer]
    exact ⟨rfl, rfl, rfl, rfl⟩
  · have tokens : (bearerToken? other).isSome = (bearerToken? request).isSome := by
      rw [bearerToken?_isSome_iff.mpr shown, bearerToken?_isSome_iff.mpr also]
    rw [handle_at found, handle_at (alike.target ▸ found)]
    simp only [atRoute, alike.method, tokens, alike.dispatch_eq]

/-- A method that is not served with a token of another scheme, and an operation with two tokens. -/
theorem token_admits_power_on :
    let app := App.inMemory {} (.uniform .none .crash)
    let store : Store := { stamps := Stamp.numbered }
    let basic : Request := ⟨.other "PUT", "/virtualization/v1beta1/virtual-machines",
      [("authorization", Utf8.encode "Basic token")], [0xFF]⟩
    let powerOn : Request := ⟨.post, "/virtualization/v1beta1/virtual-machines/vm-1/power-on",
      [tokenHeader, ("x-workspace-id", Utf8.encode "ws-1")], []⟩
    let other : Request := { powerOn with headers :=
      [("x-workspace-id", Utf8.encode "ws-1"), ("Authorization", Utf8.encode "Bearer  a b"),
        ("authorization", [0xFF])] }
    ((app.handle basic store).response.status = 401 ∧ (app.handle basic store).lookups = [] ∧
      (app.handle basic store).store = store) ∧
    app.handle other store = app.handle powerOn store ∧
    store.OnlyStamped fun store =>
      ((app.handle powerOn store).response, (app.handle powerOn store).store.ledger) := by
  intro app store basic powerOn other
  have found : Route.ofTarget? basic.target = some .machines := by decide +kernel
  have alsoFound : Route.ofTarget? powerOn.target = some (.action .powerOn "vm-1") := by
    decide +kernel
  have hidden : ¬ basic.ShowsToken := by
    rw [← bearerToken?_isSome_iff]
    decide +kernel
  have shown : powerOn.ShowsToken := bearerToken?_isSome_iff.mp (by decide +kernel)
  have also : other.ShowsToken := bearerToken?_isSome_iff.mp (by decide +kernel)
  have alike : powerOn.AlikeButToken other := ⟨rfl, rfl, rfl, by decide +kernel⟩
  have sound : store.ledger.Sound := (StoreReach.start : StoreReach Stamp.numbered store).sound
  obtain ⟨status, -, bare, same⟩ := (token_admits app store found Route.noConfusion).1 hidden
  obtain ⟨again, stamped⟩ := (token_admits app store alsoFound Route.noConfusion).2 shown
  exact ⟨⟨status, bare, same⟩, again other alike also, (stamped sound).1⟩

end App

end VmAdmission.Http
