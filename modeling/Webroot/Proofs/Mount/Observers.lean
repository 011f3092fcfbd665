import Webroot.Proofs.Mount.ListedNames

/-!
# What callbacks see

Callbacks **observe** when they leave request and response as they are. Then all that they add to an
answer are events in its journal, and the answer is else the one of the mount without them
(`Resolve.resolve_eq_silenced`). The events follow the request on its way: one for each directory
that the walk passes, from the root downwards; one for the file, if one is found; one for the
success of resolution; and one for the handler that is asked, if there is one. Each directory is
seen with the names that lead to it in the script name and in the local path, and with all that
follows in the path info.

Main statement: `Mount.journal_serve`.
-/

namespace Webroot

open Http

/-! ### Observers -/

/-- A callback **observes** when it leaves request and response as they are. -/
def Observes (f : Callback) : Prop := ∀ request response, f request response = (request, response)

/-- Options are **observing** when each of their callbacks observes. -/
structure MountOptions.Observing (o : MountOptions) : Prop where
  directory : ∀ f ∈ o.directoryCallback, Observes f
  file : ∀ f ∈ o.fileCallback, Observes f
  handler : ∀ f ∈ o.handlerCallback, Observes f

/-- The options without their callbacks. -/
def MountOptions.silenced (o : MountOptions) : MountOptions :=
  { o with directoryCallback := none, fileCallback := none, handlerCallback := none }

theorem MountOptions.silent_silenced (o : MountOptions) : o.silenced.Silent := ⟨rfl, rfl, rfl⟩

theorem MountOptions.Silent.observing {o : MountOptions} (h : o.Silent) : o.Observing :=
  ⟨by simp [h.directory], by simp [h.file], by simp [h.handler]⟩

/-- The events that a callback hears of: none if there is no callback. -/
def heard (callback : Option Callback) (events : List Event) : List Event :=
  if callback.isSome then events else []

theorem heard_append (callback : Option Callback) (es fs : List Event) :
    heard callback (es ++ fs) = heard callback es ++ heard callback fs := by
  cases callback with
  | none => rfl
  | some f => rfl

namespace Exchange

/-- The exchange with more events in its journal. -/
def noteAll (x : Exchange) (es : List Event) : Exchange := { x with journal := x.journal ++ es }

@[simp]
theorem noteAll_nil (x : Exchange) : x.noteAll [] = x := by
  simp [noteAll]

@[simp]
theorem noteAll_noteAll (x : Exchange) (es fs : List Event) :
    (x.noteAll es).noteAll fs = x.noteAll (es ++ fs) := by
  simp [noteAll]

/-- A callback that observes adds an event and no more. -/
theorem call_eq_noteAll {callback : Option Callback} (h : ∀ f ∈ callback, Observes f)
    (x : Exchange) (event : View → Event) :
    x.call event callback = x.noteAll (heard callback [event x.view]) := by
  cases callback with
  | none => exact (noteAll_nil x).symm
  | some f =>
    rw [call, h f rfl x.request x.response]
    rfl

end Exchange

/-! ### The walk -/

namespace Resolve

variable {t : FileTree} {o : MountOptions} {root : Text} {x : Exchange}

/-- The directories passed, with what each is seen with: the segments up to it have been walked, and
those after it are left. -/
def passedEvents (pre left : List Text) (scriptName here : Text) : List Event :=
  (List.range pre.length).map fun i =>
    .directory
      { scriptName := scriptName ++ (pre.take (i + 1)).flatten
        pathInfo := (pre.drop (i + 1) ++ left).flatten
        filename := some (here ++ (pre.take (i + 1)).flatten) }

theorem passedEvents_cons (base : Text) (pre left : List Text) (scriptName here : Text) :
    passedEvents (base :: pre) left scriptName here =
      .directory ⟨scriptName ++ base, (pre ++ left).flatten, some (here ++ base)⟩ ::
        passedEvents pre left (scriptName ++ base) (here ++ base) := by
  simp [passedEvents, List.range_succ_eq_map, Function.comp_def]

/-- What has been noted before makes no difference to the segments passed. -/
theorem walked_noteAll (ho : o.Silent) (pre left : List Text) (here : Text) (x : Exchange)
    (es : List Event) :
    walked o pre left here (x.noteAll es) = (walked o pre left here x).noteAll es := by
  induction pre generalizing here x with
  | nil => rfl
  | cons base pre ih =>
    rw [walked, walked, ho.directory, ← ih]
    rfl

/-- Where segments are passed before observers, each directory adds one event to the journal. -/
theorem walked_eq_silenced (ho : o.Observing) (pre left : List Text) (here : Text) (x : Exchange) :
    walked o pre left here x =
      (walked o.silenced pre left here x).noteAll
        (heard o.directoryCallback (passedEvents pre left x.request.scriptName here)) := by
  induction pre generalizing here x with
  | nil => simp [walked, passedEvents, heard]
  | cons base pre ih =>
    -- the first directory is heard of before the others
    have hsplit : heard o.directoryCallback
          (passedEvents (base :: pre) left x.request.scriptName here) =
        heard o.directoryCallback
            [.directory (shift x base (pre ++ left) (here ++ base)).view] ++
          heard o.directoryCallback
            (passedEvents pre left (x.request.scriptName ++ base) (here ++ base)) := by
      rw [passedEvents_cons, ← heard_append]
      rfl
    rw [walked, Exchange.call_eq_noteAll ho.directory, ih, walked_noteAll o.silent_silenced,
      Exchange.noteAll_noteAll, hsplit]
    rfl

/-! ### Resolution -/

/-- What is made of segments, when one is left at least. -/
theorem finish_cons (here base : Text) (rest : List Text) (x : Exchange) :
    finish t o here (base :: rest) x =
      if refuses o.hidden base = true then ⟨.error (.missing x.request.path), x⟩
      else
        match pick t o here base (languages o x.request) with
        | some name => found o x here name rest
        | none =>
          if base = ['/'] then ⟨.ok .directory, shift x base rest (here ++ base)⟩
          else ⟨.error (.missing x.request.path), x⟩ := by
  rw [finish, choose_cons]
  rfl

/-- At the end a callback is called only for a file. -/
theorem finish_eq_call (here : Text) (left : List Text) (x : Exchange) :
    finish t o here left x =
      let ended := finish t o.silenced here left x
      match ended.result with
      | .ok .file => ⟨.ok .file, ended.exchange.call .file o.fileCallback⟩
      | _ => ended := by
  cases left with
  | nil => rfl
  | cons base rest =>
    have hsilenced : finish t o.silenced here (base :: rest) x =
        if refuses o.hidden base = true then ⟨.error (.missing x.request.path), x⟩
        else
          match pick t o here base (languages o x.request) with
          | some name => ⟨.ok .file, shift x name rest (here ++ name)⟩
          | none =>
            if base = ['/'] then ⟨.ok .directory, shift x base rest (here ++ base)⟩
            else ⟨.error (.missing x.request.path), x⟩ := finish_cons here base rest x
    rw [finish_cons, hsilenced]
    cases pick t o here base (languages o x.request) with
    | none => split_ifs <;> rfl
    | some name => split_ifs <;> rfl

/-- What has been noted before makes no difference to the end. -/
theorem finish_noteAll (ho : o.Silent) (here : Text) (left : List Text) (x : Exchange)
    (es : List Event) :
    finish t o here left (x.noteAll es) =
      ⟨(finish t o here left x).result, (finish t o here left x).exchange.noteAll es⟩ := by
  cases left with
  | nil => rfl
  | cons base rest =>
    have hlanguages : languages o (x.noteAll es).request = languages o x.request := rfl
    rw [finish_cons, finish_cons, hlanguages]
    cases pick t o here base (languages o x.request) with
    | none => split_ifs <;> rfl
    | some name =>
      simp only [found, ho.file, Exchange.call]
      split_ifs <;> rfl

/-- The directories that a request passes from a root, when it passes `n` of them: each is seen with
the names of the path that lead to it, and with those after it left. -/
def directoryEvents (root : Text) (r : Request) (n : Nat) : List Event :=
  (List.range n).map fun i =>
    .directory
      { scriptName := r.scriptName ++ Path.below ((Path.names r.pathInfo).take i)
        pathInfo := Path.below ((Path.names r.pathInfo).drop i)
        filename := some (root ++ Path.below ((Path.names r.pathInfo).take i)) }

/-- The walk along the path of a request passes its first `n` segments, that of the root among them,
and no more. -/
structure PassesExactly (t : FileTree) (o : MountOptions) (root : Text) (r : Request) (n : Nat) :
    Prop where
  le : n ≤ (segments r.pathInfo).length + 1
  reaches : Reaches t o root r (([] :: segments r.pathInfo).take n)
    (([] :: segments r.pathInfo).drop n)

/-- The segments passed are those of the root and of the first names of the path. -/
theorem passedEvents_eq {r : Request} {pre left : List Text} (h : Reaches t o root r pre left) :
    passedEvents pre left r.scriptName root = directoryEvents root r pre.length := by
  rw [passedEvents, directoryEvents]
  refine List.map_congr_left fun i hi => ?_
  rw [List.mem_range] at hi
  have hsegs := h.eq_append
  have htake : pre.take (i + 1) = [] :: (((Path.names r.pathInfo).take i).map ('/' :: ·)) := by
    have hpre : (pre ++ left).take (i + 1) = pre.take (i + 1) := List.take_append_of_le_length hi
    rw [← hpre, ← hsegs, List.take_succ_cons, List.map_take]
    rfl
  have hdrop : pre.drop (i + 1) ++ left = ((Path.names r.pathInfo).drop i).map ('/' :: ·) := by
    rw [← List.drop_append_of_le_length hi, ← hsegs, List.drop_succ_cons, List.map_drop]
    rfl
  rw [htake, hdrop, flatten_names, ← Path.below_eq_flatten]

/-- The events of a resolution that has ended: the file, if one was found. -/
def fileEvents (o : MountOptions) (ended : Answer Resolved) : List Event :=
  match ended.result with
  | .ok .file => heard o.fileCallback [.file ended.exchange.view]
  | _ => []

/-- **Resolution before observers** is resolution without them; the directories passed and the file
found are added to the journal. -/
theorem resolve_eq_silenced (ho : o.Observing) (t : FileTree) (root : Text) (x : Exchange) :
    ∃ n, PassesExactly t o root x.request n ∧
      resolve t o root x =
        let ended := resolve t o.silenced root x
        ⟨ended.result, ended.exchange.noteAll
          (heard o.directoryCallback (directoryEvents root x.request n) ++
            fileEvents o ended)⟩ := by
  obtain ⟨pre, left, hreach⟩ := exists_reaches t o root x.request
  have hsilenced := resolve_eq_finish (o := o.silenced) hreach.eq_append hreach.passes hreach.stops
  refine ⟨pre.length, ⟨?_, ?_⟩, ?_⟩
  · have hlength := congrArg List.length hreach.eq_append
    rw [List.length_append, List.length_cons] at hlength
    omega
  · rw [hreach.eq_append, List.take_left, List.drop_left]
    exact hreach
  · have hscript : (entered root x).request.scriptName = x.request.scriptName := rfl
    rw [resolve_eq_finish hreach.eq_append hreach.passes hreach.stops, walked_eq_silenced ho,
      finish_eq_call, finish_noteAll o.silent_silenced, ← hsilenced, hscript,
      passedEvents_eq hreach]
    generalize resolve t o.silenced root x = ended
    obtain ⟨result, y⟩ := ended
    cases result with
    | error f => simp [fileEvents]
    | ok what =>
      cases what with
      | directory => simp [fileEvents]
      | file =>
        simp only [fileEvents]
        rw [Exchange.call_eq_noteAll ho.file, Exchange.noteAll_noteAll]
        rfl

/-- Without callbacks nothing is noted during resolution. -/
theorem journal_resolve (ho : o.Silent) (t : FileTree) (root : Text) (x : Exchange) :
    (resolve t o root x).exchange.journal = x.journal := by
  rcases finds_or_endsInDirectory_or_misses t o root x.request with
    ⟨pre, base, rest, name, hfinds⟩ | ⟨pre, left, hdir⟩ | ⟨pre, base, rest, hmiss⟩
  · rw [hfinds.resolve_eq ho]
    rfl
  · rw [hdir.resolve_eq ho]
    rfl
  · rw [hmiss.resolve_eq ho, walked_entered ho]

/-- During a resolution before observers the directories passed are noted, and then the file that
was found. -/
theorem exists_journal_resolve (ho : o.Observing) (t : FileTree) (root : Text) (x : Exchange) :
    ∃ n, PassesExactly t o root x.request n ∧
      (resolve t o root x).exchange.journal =
        x.journal ++ heard o.directoryCallback (directoryEvents root x.request n) ++
          fileEvents o (resolve t o root x) := by
  obtain ⟨n, hpasses, hresolve⟩ := resolve_eq_silenced ho t root x
  have hsilent := journal_resolve o.silent_silenced t root x
  refine ⟨n, hpasses, ?_⟩
  rw [hresolve, List.append_assoc, ← hsilent]
  rfl

/-- A file that is found has a local path, before observers too. -/
theorem exists_filename_of_file (ho : o.Observing)
    (h : (resolve t o root x).result = .ok .file) :
    ∃ path, (resolve t o root x).exchange.response.filename = some path := by
  obtain ⟨n, -, hresolve⟩ := resolve_eq_silenced ho t root x
  rw [hresolve] at h ⊢
  obtain ⟨pre, base, rest, name, hfinds⟩ := exists_finds_of_resolve o.silent_silenced h
  rw [hfinds.resolve_eq o.silent_silenced]
  exact ⟨root ++ (pre.flatten ++ name), rfl⟩

end Resolve

/-! ### Service -/

namespace Mount

variable {m : Mount} {s : Setting} {x : Exchange}

/-- Answering for a directory calls nobody. -/
theorem journal_serveDirectory (m : Mount) (s : Setting) (x : Exchange) :
    (m.serveDirectory s x).exchange.journal = x.journal := by
  rw [serveDirectory]
  split_ifs <;> rfl

/-- The handler that is asked for a file, if there is one. -/
def handlerEvents (m : Mount) (x : Exchange) : List Event :=
  (HandlerTable.choose m.options.handlers m.globalHandlers x.request.scriptName).toList.map
    fun h => .handler h.name x.request.method x.view

/-- The events after a request was resolved: if it was, its success, and for a file the handler that
is asked. -/
def resolvedEvents (m : Mount) (resolved : Answer Resolved) : List Event :=
  match resolved.result with
  | .error _ => []
  | .ok .directory => heard m.options.handlerCallback [.resolved resolved.exchange.view]
  | .ok .file =>
    heard m.options.handlerCallback [.resolved resolved.exchange.view] ++
      m.handlerEvents resolved.exchange

theorem journal_execute (ho : m.options.Observing) (s : Setting) (root : Text) (x : Exchange) :
    (m.execute s root x).exchange.journal =
      (resolve s.tree m.options root x).exchange.journal ++
        m.resolvedEvents (resolve s.tree m.options root x) := by
  have hpath : (resolve s.tree m.options root x).result = .ok .file →
      ∃ path, (resolve s.tree m.options root x).exchange.response.filename = some path :=
    Resolve.exists_filename_of_file ho
  rw [execute]
  generalize resolve s.tree m.options root x = resolved at hpath ⊢
  obtain ⟨result, y⟩ := resolved
  cases result with
  | error f => simp [resolvedEvents]
  | ok what =>
    cases what with
    | directory =>
      simp only [resolvedEvents]
      rw [Exchange.call_eq_noteAll ho.handler]
      rfl
    | file =>
      obtain ⟨path, hfilename⟩ : ∃ path, y.response.filename = some path := hpath rfl
      simp only [resolvedEvents, handlerEvents]
      rw [Exchange.call_eq_noteAll ho.handler]
      cases HandlerTable.choose m.options.handlers m.globalHandlers y.request.scriptName with
      | none => simp [servePlain, Exchange.noteAll]
      | some h => simp [handle, Exchange.noteAll, Exchange.view, hfilename]

/-- What is done with a request after it was executed calls nobody. -/
theorem journal_serve_eq (hhome : m.options.userDir = none) (s : Setting) (x : Exchange) :
    (m.serve s x).exchange.journal = (m.execute s m.root x).exchange.journal := by
  rw [serve_eq, enterHome_eq hhome]
  generalize m.execute s m.root x = executed
  obtain ⟨result, y⟩ := executed
  cases result with
  | error f => rfl
  | ok outcome =>
    cases outcome with
    | some outcome => rfl
    | none =>
      cases x.request.method with
      | get => exact journal_serveDirectory m s y
      | head => exact journal_serveDirectory m s y
      | post => rfl
      | options => rfl

/-- **Callbacks that observe.** While a request is served from the root of a mount, each callback is
called in its turn. The directory callback is called for each directory that the walk passes, from
the root downwards, and sees it with the names that lead to it in the script name and in the local
path and with the names after them in the path info. Then, when a file is found, the file callback
is called, and when the request is resolved at all, the handler callback, both with what resolution
has made of request and response. The handler for the file comes last. When resolution fails nothing
is called any more. -/
theorem journal_serve (ho : m.options.Observing) (hhome : m.options.userDir = none) (s : Setting)
    (x : Exchange) :
    let resolved := resolve s.tree m.options m.root x
    ∃ n, Resolve.PassesExactly s.tree m.options m.root x.request n ∧
      (m.serve s x).exchange.journal =
        x.journal ++
          heard m.options.directoryCallback (Resolve.directoryEvents m.root x.request n) ++
          match resolved.result with
          | .error _ => []
          | .ok .directory => heard m.options.handlerCallback [.resolved resolved.exchange.view]
          | .ok .file =>
            heard m.options.fileCallback [.file resolved.exchange.view] ++
              heard m.options.handlerCallback [.resolved resolved.exchange.view] ++
              m.handlerEvents resolved.exchange := by
  intro resolved
  obtain ⟨n, hpasses, hresolve⟩ := Resolve.exists_journal_resolve ho s.tree m.root x
  refine ⟨n, hpasses, ?_⟩
  rw [journal_serve_eq hhome, journal_execute ho, hresolve,
    List.append_assoc _ _ (resolvedEvents _ _), Resolve.fileEvents, resolvedEvents]
  -- what is noted of the result: nothing, a directory, or a file
  cases resolved.result with
  | error f => simp
  | ok what =>
    cases what with
    | directory => simp [resolved]
    | file => simp only [List.append_assoc, resolved]

/-- A setting with a text in a directory. -/
def docsSetting : Setting :=
  { tree := .ofFiles ⟨0, 0⟩ [("/www/docs/readme.txt", [0x41])], now := ⟨0, 0⟩, process := 1 }

/-- A mount with all three callbacks and with a handler for texts. -/
def watchedMount : Mount :=
  let watch : Option Callback := some fun request response => (request, response)
  { root := "/www"
    options :=
      { directoryCallback := watch
        fileCallback := watch
        handlerCallback := watch
        handlers := HandlerTable.add ∅ "txt"
          ⟨"reader", fun _ request response _ => (.ok .ok, request, response)⟩ } }

/-- A request for the text, with a name after it. -/
def readmeExchange : Exchange := { request := .new .get "/docs/readme.txt/x" }

theorem journal_serve_readmeExchange :
    Resolve.PassesExactly docsSetting.tree watchedMount.options "/www" readmeExchange.request 2 ∧
      (watchedMount.serve docsSetting readmeExchange).exchange.journal =
        [.directory ⟨"", "/docs/readme.txt/x", some "/www"⟩,
          .directory ⟨"/docs", "/readme.txt/x", some "/www/docs"⟩,
          .file ⟨"/docs/readme.txt", "/x", some "/www/docs/readme.txt"⟩,
          .resolved ⟨"/docs/readme.txt", "/x", some "/www/docs/readme.txt"⟩,
          .handler "reader" .get ⟨"/docs/readme.txt", "/x", some "/www/docs/readme.txt"⟩] := by
  have hwatch : ∀ f ∈ (some fun request response => (request, response) : Option Callback),
      Observes f := by
    rintro f ⟨⟩ request response
    rfl
  obtain ⟨n, hpasses, hjournal⟩ := journal_serve (m := watchedMount) ⟨hwatch, hwatch, hwatch⟩ rfl
    docsSetting readmeExchange
  have hevents : (watchedMount.serve docsSetting readmeExchange).exchange.journal =
      [.directory ⟨"", "/docs/readme.txt/x", some "/www"⟩,
        .directory ⟨"/docs", "/readme.txt/x", some "/www/docs"⟩,
        .file ⟨"/docs/readme.txt", "/x", some "/www/docs/readme.txt"⟩,
        .resolved ⟨"/docs/readme.txt", "/x", some "/www/docs/readme.txt"⟩,
        .handler "reader" .get ⟨"/docs/readme.txt", "/x", some "/www/docs/readme.txt"⟩] := by
    decide +kernel
  have hresult : (resolve docsSetting.tree watchedMount.options watchedMount.root
      readmeExchange).result = .ok .file := by
    decide +kernel
  have hhandler : (watchedMount.handlerEvents (resolve docsSetting.tree watchedMount.options
      watchedMount.root readmeExchange).exchange).length = 1 := by
    decide +kernel
  have hheard : ∀ events, heard watchedMount.options.directoryCallback events = events ∧
      heard watchedMount.options.fileCallback events = events ∧
        heard watchedMount.options.handlerCallback events = events :=
    fun _ => ⟨rfl, rfl, rfl⟩
  -- three of the five events are not those of directories
  have hcount := congrArg List.length (hevents.symm.trans hjournal)
  rw [hresult] at hcount
  simp only [hheard, Resolve.directoryEvents, List.length_append, List.length_map,
    List.length_range, List.length_cons, List.length_nil, hhandler] at hcount
  have hjournal' : readmeExchange.journal.length = 0 := rfl
  obtain rfl : n = 2 := by omega
  exact ⟨hpasses, hevents⟩

end Mount

end Webroot
