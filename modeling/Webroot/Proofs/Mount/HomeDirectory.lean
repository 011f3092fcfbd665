import Webroot.Proofs.Files.NormalForm
import Webroot.Proofs.Mount.Observers

/-!
# Home directories are mounts

A mount with a user directory serves `/~user/…` from below the user's home. What it does then is
compared with two other mounts: the one **rooted** in the user's directory, which knows nothing of
users, and the same mount **without homes**.

Once the home is entered or not, nothing on the way asks for a home again, and nothing reads what
was noted in the journal before. So the answer is the one of the rooted mount for the request in
which the user's name has moved from the path info to the script name; it is the one without homes
when there is no such user or when the request asks for none; and only a request that asks for a
user's files has anybody looked up.

Main statement: `Mount.serve_home`.
-/

namespace Webroot

open Http

/-! ### What was noted before -/

/-- The exchange with events before those in its journal. -/
def Exchange.withPast (past : List Event) (x : Exchange) : Exchange :=
  { x with journal := past ++ x.journal }

/-- The answer with events before those in its journal. -/
def Answer.withPast {α : Type} (past : List Event) (a : Answer α) : Answer α :=
  { a with exchange := a.exchange.withPast past }

/-- The user that an event looks up, if it is a lookup. -/
def Event.lookedUp? : Event → Option Text
  | homeLookup user => some user
  | _ => none

/-- The users that were looked up during an exchange. -/
def Exchange.lookups (x : Exchange) : List Text := x.journal.filterMap Event.lookedUp?

namespace Exchange

theorem lookups_note {e : Event} (he : e.lookedUp? = none) (x : Exchange) :
    (x.note e).lookups = x.lookups := by
  simp [lookups, note, he]

/-- A callback does not see what was noted before. -/
theorem call_withPast (past : List Event) (x : Exchange) (event : View → Event)
    (callback : Option Callback) :
    (x.withPast past).call event callback = (x.call event callback).withPast past := by
  cases callback with
  | none => rfl
  | some f => simp [call, withPast, view]

/-- A callback looks up no home. -/
theorem lookups_call {event : View → Event} (hevent : ∀ seen, (event seen).lookedUp? = none)
    (x : Exchange) (callback : Option Callback) : (x.call event callback).lookups = x.lookups := by
  cases callback with
  | none => rfl
  | some f => exact lookups_note (hevent x.view) x

end Exchange

/-- A step of the service is **homeless** when what was noted before makes no difference to it and
it looks up no home. -/
structure Homeless {α : Type} (step : Exchange → Answer α) : Prop where
  withPast : ∀ past x, step (x.withPast past) = (step x).withPast past
  lookups : ∀ x, (step x).exchange.lookups = x.lookups

namespace Answer

variable {α β : Type} {step : α → Exchange → Answer β}

/-- The answer of the next step, unless there was a failure. -/
def bind (a : Answer α) (step : α → Exchange → Answer β) : Answer β :=
  match a.result with
  | .error f => ⟨.error f, a.exchange⟩
  | .ok v => step v a.exchange

theorem bind_withPast (hstep : ∀ v, Homeless (step v)) (past : List Event) (a : Answer α) :
    (a.withPast past).bind step = (a.bind step).withPast past := by
  obtain ⟨result, x⟩ := a
  cases result with
  | error f => rfl
  | ok v => exact (hstep v).withPast past x

theorem lookups_bind (hstep : ∀ v, Homeless (step v)) (a : Answer α) :
    (a.bind step).exchange.lookups = a.exchange.lookups := by
  obtain ⟨result, x⟩ := a
  cases result with
  | error f => rfl
  | ok v => exact (hstep v).lookups x

end Answer

namespace Homeless

variable {α : Type}

/-- What only answers is homeless. -/
theorem answer (result : Except Failure α) : Homeless fun x => ⟨result, x⟩ :=
  ⟨fun _ _ => rfl, fun _ => rfl⟩

/-- A homeless step is so after a callback. -/
theorem after_call {step : Exchange → Answer α} (h : Homeless step) (event : View → Event)
    (hevent : ∀ seen, (event seen).lookedUp? = none) (callback : Option Callback) :
    Homeless fun x => step (x.call event callback) := by
  refine ⟨fun past x => ?_, fun x => ?_⟩
  · rw [Exchange.call_withPast, h.withPast]
  · rw [h.lookups, Exchange.lookups_call hevent]

end Homeless

namespace Resolve

variable {t : FileTree} {o : MountOptions}

/-- The walk from a directory is homeless. -/
theorem homeless_descend (segs : List Text) (here : Text) : Homeless (descend t o segs here) := by
  induction segs generalizing here with
  | nil => exact .answer (.ok (here, []))
  | cons base rest ih =>
    -- a walk that goes on does so after the callback for the directory
    have hnext := (ih (here ++ base)).after_call .directory (fun _ => rfl) o.directoryCallback
    refine ⟨fun past x => ?_, fun x => ?_⟩
    · rw [descend, descend]
      split_ifs
      · rfl
      · rfl
      · exact hnext.withPast past (shift x base rest (here ++ base))
    · rw [descend]
      split_ifs
      · rfl
      · rfl
      · exact hnext.lookups (shift x base rest (here ++ base))

/-- The choice in a directory is homeless. -/
theorem homeless_choose (here : Text) (left : List Text) : Homeless (choose t o here left) := by
  cases left with
  | nil => exact .answer (.ok Resolved.directory)
  | cons base rest =>
    have hfound := (Homeless.answer (.ok Resolved.file)).after_call .file (fun _ => rfl)
      o.fileCallback
    refine ⟨fun past x => ?_, fun x => ?_⟩
    · have hlanguages : languages o (x.withPast past).request = languages o x.request := rfl
      rw [choose_cons, choose_cons, hlanguages]
      split
      · rename_i name _
        exact hfound.withPast past (shift x name rest (here ++ name))
      · split_ifs <;> rfl
    · rw [choose_cons]
      split
      · rename_i name _
        exact hfound.lookups (shift x name rest (here ++ name))
      · split_ifs <;> rfl

end Resolve

/-- Resolution walks, and chooses where the walk has ended. -/
theorem resolve_eq_bind (t : FileTree) (o : MountOptions) (root : Text) (x : Exchange) :
    resolve t o root x =
      (Resolve.descend t o ([] :: Resolve.segments x.request.pathInfo) root
        (Resolve.entered root x)).bind fun reached => Resolve.choose t o reached.1 reached.2 := by
  rw [Resolve.resolve_eq_descend]
  generalize Resolve.descend t o _ root (Resolve.entered root x) = walked
  obtain ⟨result, y⟩ := walked
  cases result <;> rfl

/-- Resolution is homeless. -/
theorem homeless_resolve (t : FileTree) (o : MountOptions) (root : Text) :
    Homeless (resolve t o root) := by
  refine ⟨fun past x => ?_, fun x => ?_⟩
  · have hwalk := (Resolve.homeless_descend (t := t) (o := o)
      ([] :: Resolve.segments x.request.pathInfo) root).withPast past (Resolve.entered root x)
    rw [resolve_eq_bind, resolve_eq_bind,
      ← Answer.bind_withPast (fun _ => Resolve.homeless_choose _ _), ← hwalk]
    rfl
  · have hwalk := (Resolve.homeless_descend (t := t) (o := o)
      ([] :: Resolve.segments x.request.pathInfo) root).lookups (Resolve.entered root x)
    rw [resolve_eq_bind, Answer.lookups_bind (fun _ => Resolve.homeless_choose _ _), hwalk]
    rfl

/-! ### Service from a root -/

namespace Mount

variable {m : Mount} {s : Setting}

/-- Answers a request that means a file. -/
def answerFile (m : Mount) (s : Setting) (x : Exchange) : Answer (Option Outcome) :=
  let handler := HandlerTable.choose m.options.handlers m.globalHandlers x.request.scriptName
  let x := x.call .resolved m.options.handlerCallback
  let path := x.response.filename.getD []
  let answer := match handler with
    | some h => handle s h path x
    | none => servePlain s path x
  ⟨answer.result.map some, answer.exchange⟩

/-- Goes on with what a request was found to mean. -/
def answerResolved (m : Mount) (s : Setting) (what : Resolved) (x : Exchange) :
    Answer (Option Outcome) :=
  match what with
  | .directory => ⟨.ok none, x.call .resolved m.options.handlerCallback⟩
  | .file => m.answerFile s x

theorem execute_eq_bind (m : Mount) (s : Setting) (root : Text) (x : Exchange) :
    m.execute s root x = (resolve s.tree m.options root x).bind (m.answerResolved s) := by
  rw [execute]
  generalize resolve s.tree m.options root x = resolved
  obtain ⟨result, y⟩ := resolved
  cases result with
  | error f => rfl
  | ok what => cases what <;> rfl

/-- Answers a request by its method, when no file has answered it. -/
def answerMethod (m : Mount) (s : Setting) (method : Method) (answered : Option Outcome)
    (x : Exchange) : Answer Outcome :=
  match answered with
  | some outcome => ⟨.ok outcome, x⟩
  | none =>
    match method with
    | .get | .head => m.serveDirectory s x
    | .post => ⟨.error (.missing x.request.path), x⟩
    | .options => ⟨.ok .declined, x⟩

/-- Answers a request from a root directory, whoever's it is. -/
def serveFrom (m : Mount) (s : Setting) (root : Text) (x : Exchange) : Answer Outcome :=
  (m.execute s root x).bind (m.answerMethod s x.request.method)

/-- A file is answered without a look at homes. -/
theorem homeless_answerFile (m : Mount) (s : Setting) : Homeless (m.answerFile s) := by
  refine ⟨fun past x => ?_, fun x => ?_⟩
  · have hname : (x.withPast past).request.scriptName = x.request.scriptName := rfl
    simp only [answerFile, hname, Exchange.call_withPast]
    cases HandlerTable.choose m.options.handlers m.globalHandlers x.request.scriptName with
    | none => rfl
    | some h => simp [handle, Exchange.withPast, Answer.withPast]
  · have hcall : (x.call .resolved m.options.handlerCallback).lookups = x.lookups :=
      Exchange.lookups_call (fun _ => rfl) x m.options.handlerCallback
    simp only [answerFile]
    cases HandlerTable.choose m.options.handlers m.globalHandlers x.request.scriptName with
    | none => exact hcall
    | some h =>
      rw [← hcall]
      simp [handle, Exchange.lookups, Event.lookedUp?]

/-- What a request means is answered without a look at homes. -/
theorem homeless_answerResolved (m : Mount) (s : Setting) (what : Resolved) :
    Homeless (m.answerResolved s what) := by
  cases what with
  | directory =>
    exact (Homeless.answer (.ok none)).after_call .resolved (fun _ => rfl)
      m.options.handlerCallback
  | file => exact homeless_answerFile m s

theorem homeless_execute (m : Mount) (s : Setting) (root : Text) :
    Homeless (m.execute s root) := by
  have hresolve := homeless_resolve s.tree m.options root
  refine ⟨fun past x => ?_, fun x => ?_⟩
  · rw [execute_eq_bind, execute_eq_bind, hresolve.withPast,
      Answer.bind_withPast (homeless_answerResolved m s)]
  · rw [execute_eq_bind, Answer.lookups_bind (homeless_answerResolved m s), hresolve.lookups]

theorem homeless_answerMethod (m : Mount) (s : Setting) (method : Method)
    (answered : Option Outcome) : Homeless (m.answerMethod s method answered) := by
  have hdirectory : Homeless (m.serveDirectory s) := by
    refine ⟨fun past x => ?_, fun x => ?_⟩
    · have hpath : (x.withPast past).request.path = x.request.path := rfl
      simp only [serveDirectory, hpath]
      split_ifs <;> rfl
    · rw [serveDirectory]
      split_ifs <;> rfl
  cases answered with
  | some outcome => exact .answer (.ok outcome)
  | none =>
    cases method with
    | get => exact hdirectory
    | head => exact hdirectory
    | post => exact ⟨fun _ _ => rfl, fun _ => rfl⟩
    | options => exact .answer (.ok Outcome.declined)

/-- Service from a root is homeless. -/
theorem homeless_serveFrom (m : Mount) (s : Setting) (root : Text) :
    Homeless (m.serveFrom s root) := by
  have hexecute := homeless_execute m s root
  refine ⟨fun past x => ?_, fun x => ?_⟩
  · rw [serveFrom, serveFrom, hexecute.withPast,
      ← Answer.bind_withPast (homeless_answerMethod m s x.request.method)]
    rfl
  · rw [serveFrom, Answer.lookups_bind (homeless_answerMethod m s x.request.method),
      hexecute.lookups]

/-! ### Requests for homes -/

/-- A request **asks for** the files of a user when nothing of its path counts as walked and the
path begins with the user's name behind `/~`. -/
structure AsksForHome (r : Request) (user rest : Text) : Prop where
  scriptName : r.scriptName = []
  pathInfo : r.pathInfo = "/~" ++ (user ++ rest)
  ne_nil : user ≠ []
  slash_not_mem : '/' ∉ user
  rest : rest = [] ∨ Path.isAbsolute rest = true

/-- The request in which the name of a user counts as walked. -/
def movedHome (r : Request) (user rest : Text) : Request :=
  { r with scriptName := "/~" ++ user, pathInfo := rest }

/-- The home of a user: the installed lookup is asked, or else the accounts of the machine. -/
def homeOf (m : Mount) (user : Text) : Option Text :=
  match m.homeLookup with
  | some lookup => lookup user
  | none => m.accounts user

/-- What is noted when the home of a user is looked up. -/
def lookupEvents (m : Mount) (user : Text) : List Event :=
  if m.homeLookup.isSome then [.homeLookup user] else []

theorem home?_eq (m : Mount) (user : Text) (x : Exchange) :
    m.home? user x = (m.homeOf user, x.noteAll (m.lookupEvents user)) := by
  rw [home?.eq_def, homeOf, lookupEvents]
  cases m.homeLookup with
  | none => simp
  | some lookup => rfl

/-- A path info asks for a user when it begins with a name behind `/~`. The name goes as far as to
the next slash. -/
theorem userOf?_eq_some_iff {pathInfo user rest : Text} :
    userOf? pathInfo = some (user, rest) ↔
      pathInfo = "/~" ++ (user ++ rest) ∧ user ≠ [] ∧ '/' ∉ user ∧
        (rest = [] ∨ Path.isAbsolute rest = true) := by
  constructor
  · intro h
    rw [userOf?] at h
    split at h
    · cases h
    · rename_i t hafter
      dsimp only at h
      split at h
      · cases h
      · rename_i huser
        obtain ⟨rfl, rfl⟩ := Prod.mk.inj (Option.some.inj h)
        have hall : (t.takeWhile (· != '/')).all (· != '/') = true := List.all_takeWhile
        refine ⟨?_, by simpa using huser, ?_, ?_⟩
        · rw [List.takeWhile_append_dropWhile]
          exact Text.eq_append_of_after? hafter
        · intro hslash
          simpa using List.all_eq_true.mp hall '/' hslash
        · have hnext := List.head?_dropWhile_not (· != '/') t
          cases hrest : t.dropWhile (· != '/') with
          | nil => exact .inl rfl
          | cons c rest =>
            rw [hrest] at hnext
            exact .inr (by simpa [Path.isAbsolute] using hnext)
  · rintro ⟨rfl, hne, hslash, hrest⟩
    have hkept : ∀ c ∈ user, (c != '/') = true := by
      rintro c hc
      rw [bne_iff_ne]
      rintro rfl
      exact hslash hc
    have hnext : ∀ c ∈ rest.head?, (c != '/') = false := by
      intro c hc
      rcases hrest with rfl | hrest
      · cases hc
      · rw [Path.isAbsolute, hc, beq_iff_eq, Option.some.injEq] at hrest
        rw [hrest, bne_self_eq_false]
    rw [userOf?, Text.after?_append]
    dsimp only
    rw [Text.takeWhile_append_of_first hkept hnext, Text.dropWhile_append_of_first hkept hnext,
      if_neg (by simpa using hne)]

theorem asksForHome_iff {r : Request} {user rest : Text} :
    AsksForHome r user rest ↔ r.scriptName = [] ∧ userOf? r.pathInfo = some (user, rest) := by
  rw [userOf?_eq_some_iff]
  exact ⟨fun h => ⟨h.scriptName, h.pathInfo, h.ne_nil, h.slash_not_mem, h.rest⟩,
    fun ⟨hscript, hpath, hne, hslash, hrest⟩ => ⟨hscript, hpath, hne, hslash, hrest⟩⟩

section EnterHome

variable {x : Exchange} {user rest dir : Text}

/-- A request for the files of a user enters the user's home, if there is one. -/
theorem enterHome_of_asksForHome (hdir : m.options.userDir = some dir)
    (hasks : AsksForHome x.request user rest) :
    m.enterHome x =
      match m.homeOf user with
      | some home =>
        (Path.join home dir,
          { x with
            request := movedHome x.request user rest
            journal := x.journal ++ m.lookupEvents user })
      | none => (m.root, { x with journal := x.journal ++ m.lookupEvents user }) := by
  obtain ⟨hscript, huser⟩ := asksForHome_iff.mp hasks
  simp only [enterHome, hdir, huser, hscript, home?_eq]
  cases m.homeOf user <;> rfl

/-- A request that asks for no user's files is left as it is. -/
theorem enterHome_of_not_asksForHome (h : ∀ user rest, ¬AsksForHome x.request user rest) :
    m.enterHome x = (m.root, x) := by
  rw [enterHome]
  split
  · rename_i user rest hdir huser
    rw [if_neg]
    intro hscript
    exact h _ _ (asksForHome_iff.mpr ⟨by simpa using hscript, huser⟩)
  · rfl

end EnterHome

/-- Entering a home leaves the method. -/
theorem method_enterHome (m : Mount) (x : Exchange) :
    (m.enterHome x).2.request.method = x.request.method := by
  simp only [enterHome, home?_eq]
  split
  · split_ifs
    · split <;> rfl
    · rfl
  · rfl

/-- A home may be entered, and then the request is answered from a root. -/
theorem serve_eq_serveFrom (m : Mount) (s : Setting) (x : Exchange) :
    m.serve s x = m.serveFrom s (m.enterHome x).1 (m.enterHome x).2 := by
  rw [serve_eq, serveFrom, method_enterHome]
  generalize m.execute s (m.enterHome x).1 (m.enterHome x).2 = executed
  obtain ⟨result, y⟩ := executed
  cases result with
  | error f => rfl
  | ok answered => cases answered <;> rfl

/-! ### The mounts compared with -/

/-- The mount of another directory with the same options, handlers and homes. -/
def rootedAt (m : Mount) (workingDirectory root : Text) : Mount :=
  { new workingDirectory root m.options with
    globalHandlers := m.globalHandlers
    accounts := m.accounts
    homeLookup := m.homeLookup }

/-- The mount without a user directory. -/
def withoutHomes (m : Mount) : Mount :=
  { m with options := { m.options with userDir := none } }

theorem serve_rootedAt (workingDirectory : Text) {root : Text} (hroot : Path.Normal root)
    {x : Exchange} (hscript : x.request.scriptName ≠ []) :
    (m.rootedAt workingDirectory root).serve s x = m.serveFrom s root x := by
  have habsolute : (m.rootedAt workingDirectory root).root = root :=
    Path.absolute_of_normal workingDirectory hroot
  rw [serve_eq_serveFrom, enterHome_of_not_asksForHome fun _ _ h => hscript h.scriptName, habsolute]
  rfl

/-- Resolution does not depend on the user directory. -/
theorem resolve_withoutHomes (m : Mount) (t : FileTree) (root : Text) (x : Exchange) :
    resolve t m.withoutHomes.options root x = resolve t m.options root x := by
  have hwalk : ∀ segs here x, Resolve.descend t m.withoutHomes.options segs here x =
      Resolve.descend t m.options segs here x := by
    intro segs
    induction segs with
    | nil => exact fun _ _ => rfl
    | cons base rest ih =>
      intro here x
      simp only [Resolve.descend, ih]
      rfl
  rw [Resolve.resolve_eq_descend, hwalk, Resolve.resolve_eq_descend]
  rfl

theorem serve_withoutHomes (m : Mount) (s : Setting) (x : Exchange) :
    m.withoutHomes.serve s x = m.serveFrom s m.root x := by
  rw [serve_eq_serveFrom, enterHome_eq rfl, serveFrom, execute_eq_bind, resolve_withoutHomes,
    serveFrom, execute_eq_bind]
  rfl

/-! ### Homes as mounts -/

/-- **Home directories.** A mount with a user directory answers a request for the files of a user as
the mount rooted in that directory of the user's home does, when the name of the user counts as
walked: the result, the response and the request are the same, and the journal differs in the lookup
only. When no home is found, the answer is the one without homes. Any other request is answered as
without homes, and nobody's home is looked up. -/
theorem serve_home {dir : Text} (hdir : m.options.userDir = some dir) (s : Setting) (x : Exchange) :
    (∀ user rest, AsksForHome x.request user rest →
      (∀ home, m.homeOf user = some home → Path.Normal (Path.join home dir) → ∀ workingDirectory,
        m.serve s x =
          ((m.rootedAt workingDirectory (Path.join home dir)).serve s
            { request := movedHome x.request user rest
              response := x.response }).withPast (x.journal ++ m.lookupEvents user)) ∧
      (m.homeOf user = none →
        m.serve s x =
          (m.withoutHomes.serve s { request := x.request, response := x.response }).withPast
            (x.journal ++ m.lookupEvents user))) ∧
    ((∀ user rest, ¬AsksForHome x.request user rest) →
      m.serve s x = m.withoutHomes.serve s x ∧
      (m.serve s x).exchange.lookups = x.lookups) := by
  refine ⟨fun user rest hasks => ⟨?_, ?_⟩, fun hnot => ⟨?_, ?_⟩⟩
  · intro home hhome hnormal workingDirectory
    -- the name of the user counts as walked, so the rooted mount enters no home
    have hscript : (movedHome x.request user rest).scriptName ≠ [] := List.cons_ne_nil _ _
    rw [serve_eq_serveFrom, enterHome_of_asksForHome hdir hasks, hhome,
      serve_rootedAt workingDirectory hnormal hscript, ← (homeless_serveFrom m s _).withPast]
    simp [Exchange.withPast]
  · intro hhome
    rw [serve_eq_serveFrom, enterHome_of_asksForHome hdir hasks, hhome, serve_withoutHomes,
      ← (homeless_serveFrom m s _).withPast]
    simp [Exchange.withPast]
  · rw [serve_eq_serveFrom, enterHome_of_not_asksForHome hnot, serve_withoutHomes]
  · rw [serve_eq_serveFrom, enterHome_of_not_asksForHome hnot, (homeless_serveFrom m s _).lookups]

/-- A setting with a text in the home of a user. -/
def homeSetting : Setting :=
  { tree := .ofFiles ⟨0, 0⟩ [("/home/alice/public_html/notes.txt", [0x41])]
    now := ⟨0, 0⟩
    process := 1 }

/-- A mount that knows one user. -/
def sharedMount : Mount :=
  { root := "/www"
    options := { userDir := some "public_html" }
    homeLookup := some fun user => if user = "alice".toList then some "/home/alice" else none }

/-- A request for the text of that user. -/
def notesExchange : Exchange := { request := .new .get "/~alice/notes.txt" }

theorem serve_home_notesExchange :
    AsksForHome notesExchange.request "alice" "/notes.txt" ∧
      sharedMount.serve homeSetting notesExchange =
        ((sharedMount.rootedAt "/" "/home/alice/public_html").serve homeSetting
          { request := movedHome notesExchange.request "alice" "/notes.txt"
            response := {} }).withPast [.homeLookup "alice"] ∧
      (sharedMount.serve homeSetting notesExchange).result = .ok .ok ∧
      (sharedMount.serve homeSetting notesExchange).exchange.request.scriptName =
        "/~alice/notes.txt" := by
  have hasks : AsksForHome notesExchange.request "alice" "/notes.txt" := by
    constructor <;> decide +kernel
  have hnormal : Path.Normal (Path.join "/home/alice" "public_html") := by decide +kernel
  obtain ⟨hhome, -⟩ := (serve_home (m := sharedMount) rfl homeSetting notesExchange).1 _ _ hasks
  refine ⟨hasks, hhome "/home/alice" rfl hnormal "/", ?_, ?_⟩ <;> decide +kernel

end Mount

end Webroot
