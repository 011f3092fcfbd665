import Webroot.Proofs.Mount.Redirect
import Webroot.Proofs.Mount.VariantType

/-!
# The last name decides

A file has two paths: the **script name**, by which the request knows it, and the local path. The
handler is chosen by the suffixes of the one, and the type of its content by those of the other. The
two differ in what stands in front, which is the mount point in the one and the root directory in
the other, and both may hold dots; but what resolution has walked and picked is the same text behind
both, and it begins with a slash (`Resolve.Finds.exists_sharesName`). Since no suffix reaches across
a slash, the two paths have the same suffixes, namely those of the name behind their last slash.

The root has to be a directory: one that is a file is found under its own name, which is not behind
the mount point.

Main statement: `Mount.sameSuffixes_of_file`.
-/

namespace Webroot

open Http Text

/-- The handler is chosen by the suffixes. -/
theorem HandlerTable.choose_congr {a b : Text} (h : SameSuffixes a b)
    (mount global : HandlerTable) : choose mount global a = choose mount global b := by
  rw [choose, choose, h.suffixes_eq]

/-! ### The name that both paths share -/

/-- An exchange **shares a name** between its two paths when both go on behind what was there before
with a directory, a slash and that name. -/
structure SharesName (root : Text) (x y : Exchange) (dir name : Text) : Prop where
  slash_not_mem : '/' ∉ name
  scriptName : y.request.scriptName = x.request.scriptName ++ dir ++ '/' :: name
  filename : y.response.filename = some (root ++ dir ++ '/' :: name)

/-- The suffixes of the script name are those of the name. -/
theorem SharesName.sameSuffixes {root : Text} {x y : Exchange} {dir name : Text}
    (h : SharesName root x y dir name) : SameSuffixes y.request.scriptName name := by
  rw [h.scriptName]
  exact sameSuffixes_append_slash _ name

/-- When the root is a directory, a file that is found gives both paths its name. -/
theorem Resolve.Finds.exists_sharesName {t : FileTree} {o : MountOptions} {root : Text}
    {x : Exchange} {pre rest : List Text} {base name : Text} (hroot : t.isDirectory root = true)
    (h : Finds t o root x.request pre base rest name) :
    ∃ dir last, SharesName root x (moved root x (pre.flatten ++ name) rest) dir last := by
  rcases h.eq_nil_or_exists_names with ⟨-, -, hno⟩ | ⟨-, n, -, -, -, rfl⟩
  · rw [hroot] at hno
    cases hno
  · -- an index name may hold slashes, so the last one need not be the one before the picked name
    obtain ⟨-, n', rfl, -⟩ := exists_name_of_pick h.picked
    obtain ⟨dir, last, htaken, hlast⟩ :=
      Path.exists_eq_append_name (p := pre.flatten ++ '/' :: n') (by simp)
    refine ⟨dir, last, hlast, ?_, ?_⟩
    · rw [moved, htaken, List.append_assoc]
    · rw [moved, htaken, List.append_assoc]
      rfl

/-! ### The answer -/

namespace Mount

variable {m : Mount} {s : Setting} {root path : Text} {x : Exchange}

/-- Answers a request for a local file by the handler for a name, or as a plain file when there is
none. -/
def answerBy (m : Mount) (s : Setting) (name path : Text) (x : Exchange) : Answer Outcome :=
  match HandlerTable.choose m.options.handlers m.globalHandlers name with
  | some h => handle s h path x
  | none => servePlain s path x

theorem answerBy_congr {a b : Text} (h : SameSuffixes a b) :
    m.answerBy s a path x = m.answerBy s b path x := by
  rw [answerBy, answerBy, HandlerTable.choose_congr h]

/-- A file that is found is answered by the handler for its script name. -/
theorem execute_of_file (ho : m.options.Silent)
    (hresult : (resolve s.tree m.options root x).result = .ok .file)
    (hpath : (resolve s.tree m.options root x).exchange.response.filename = some path) :
    m.execute s root x =
      let y := (resolve s.tree m.options root x).exchange
      let answer := m.answerBy s y.request.scriptName path y
      ⟨answer.result.map some, answer.exchange⟩ := by
  cases hhandler : HandlerTable.choose m.options.handlers m.globalHandlers
      (resolve s.tree m.options root x).exchange.request.scriptName <;>
    simp only [execute, answerBy, hresult, hhandler, ho.handler, Exchange.call, hpath,
      Option.getD_some]

/-- Without a handler the content of a file is sent as the type of its name. -/
theorem sendsAs_answerBy {name : Text} {o : Outcome} (hsame : SameSuffixes path name)
    (hhandler : HandlerTable.choose m.options.handlers m.globalHandlers name = none)
    (hmethod : x.request.method = .get ∨ x.request.method = .head)
    (h : (m.answerBy s name path x).result = .ok o) (hsends : o ≠ .notModified) :
    (m.answerBy s name path x).exchange.response.SendsAs (mediaType name) := by
  have hplain : m.answerBy s name path x = servePlain s path x := by rw [answerBy, hhandler]
  rw [hplain] at h ⊢
  rw [← hsame.mediaType_eq]
  exact StaticFile.sendsAs_serve hmethod h hsends

/-- **The last name decides.** A path has the suffixes, and so the media type, of the name behind
any slash in it. When the root is a directory, a file that is found without callbacks has the same
suffixes under both of its paths, for both end in one name, whatever stands before it: the handler
is the one for that name, and without a handler the content is sent as the type of that name. -/
theorem sameSuffixes_of_file :
    (∀ dir name : Text,
      SameSuffixes (dir ++ '/' :: name) name ∧ mediaType (dir ++ '/' :: name) = mediaType name) ∧
    ∀ (m : Mount) (s : Setting) (root : Text) (x : Exchange), m.options.Silent →
      s.tree.isDirectory root = true → (resolve s.tree m.options root x).result = .ok .file →
      ∃ dir name,
        let y := (resolve s.tree m.options root x).exchange
        let path := root ++ dir ++ '/' :: name
        let answer := m.answerBy s name path y
        SharesName root x y dir name ∧
        SameSuffixes y.request.scriptName path ∧ SameSuffixes path name ∧
        m.execute s root x = ⟨answer.result.map some, answer.exchange⟩ ∧
        (HandlerTable.choose m.options.handlers m.globalHandlers name = none →
          x.request.method = .get ∨ x.request.method = .head →
          ∀ o, (m.execute s root x).result = .ok (some o) → o ≠ .notModified →
            (m.execute s root x).exchange.response.SendsAs (mediaType name)) := by
  refine ⟨fun dir name => ?_, fun m s root x ho hroot hfile => ?_⟩
  · have hsame := sameSuffixes_append_slash dir name
    exact ⟨hsame, hsame.mediaType_eq⟩
  · obtain ⟨pre, base, rest, picked, hfinds⟩ := Resolve.exists_finds_of_resolve ho hfile
    have hexchange : (resolve s.tree m.options root x).exchange =
        Resolve.moved root x (pre.flatten ++ picked) rest := by
      rw [hfinds.resolve_eq ho]
    obtain ⟨dir, name, hshares⟩ := hfinds.exists_sharesName hroot
    rw [← hexchange] at hshares
    have hmethod : (resolve s.tree m.options root x).exchange.request.method =
        x.request.method := by
      rw [hexchange]
      rfl
    have hpath : SameSuffixes (root ++ dir ++ '/' :: name) name :=
      sameSuffixes_append_slash _ name
    have hexecute := execute_of_file ho hfile hshares.filename
    simp only [answerBy_congr hshares.sameSuffixes] at hexecute
    refine ⟨dir, name, hshares, hshares.sameSuffixes.trans hpath.symm, hpath, hexecute, ?_⟩
    intro hhandler hget o hresult hsends
    rw [hexecute] at hresult ⊢
    obtain ⟨o', hanswer, hsome⟩ := exists_of_map_eq_ok hresult
    obtain rfl := Option.some.inj hsome
    exact sendsAs_answerBy hpath hhandler (hmethod ▸ hget) hanswer hsends

/-- A setting with a page in French, in directories with dots. -/
def dottedSetting : Setting :=
  { tree := .ofFiles ⟨0, 0⟩ [("/srv/site.cgi/docs.cgi/page.html.fr", [0x41])]
    now := ⟨0, 0⟩
    process := 1 }

/-- A mount of one of these directories, with a handler for the suffix that they have. -/
def dottedMount : Mount :=
  { root := "/srv/site.cgi"
    options :=
      { acceptableLanguages := ["fr"]
        handlers := HandlerTable.add ∅ "cgi"
          ⟨"script", fun _ request response _ => (.ok .ok, request, response)⟩ } }

/-- A request for the page below a mount point with the same suffix. -/
def dottedExchange : Exchange :=
  { request := { Request.new .get "/app.cgi/docs.cgi/page.html" with
      scriptName := "/app.cgi", pathInfo := "/docs.cgi/page.html" } }

theorem sameSuffixes_of_file_dottedMount :
    let y := (resolve dottedSetting.tree dottedMount.options "/srv/site.cgi"
      dottedExchange).exchange
    dottedMount.options.Silent ∧ dottedSetting.tree.isDirectory "/srv/site.cgi" = true ∧
      (resolve dottedSetting.tree dottedMount.options "/srv/site.cgi" dottedExchange).result =
        .ok .file ∧
      SharesName "/srv/site.cgi" dottedExchange y "/docs.cgi" "page.html.fr" ∧
      SameSuffixes y.request.scriptName "/srv/site.cgi/docs.cgi/page.html.fr" ∧
      primarySuffix? y.request.scriptName = some "fr".toList ∧
      secondarySuffix? y.request.scriptName = some "html".toList ∧
      (dottedMount.execute dottedSetting "/srv/site.cgi" dottedExchange).exchange.response.SendsAs
        "text/html" := by
  intro y
  have hsilent : dottedMount.options.Silent := ⟨rfl, rfl, rfl⟩
  have hroot : dottedSetting.tree.isDirectory "/srv/site.cgi" = true := by decide +kernel
  have hfile : (resolve dottedSetting.tree dottedMount.options "/srv/site.cgi"
      dottedExchange).result = .ok .file := by
    decide +kernel
  have hscript : y.request.scriptName = "/app.cgi" ++ "/docs.cgi" ++ '/' :: "page.html.fr" := by
    decide +kernel
  have hresult : (dottedMount.execute dottedSetting "/srv/site.cgi" dottedExchange).result =
      .ok (some .ok) := by
    decide +kernel
  obtain ⟨dir, name, hshares, hsame, -, -, hsends⟩ := sameSuffixes_of_file.2 dottedMount
    dottedSetting "/srv/site.cgi" dottedExchange hsilent hroot hfile
  have hends := hshares.scriptName.symm.trans hscript
  obtain rfl : name = "page.html.fr" :=
    eq_of_append_cons_eq hshares.slash_not_mem (by decide) hends
  obtain rfl : dir = "/docs.cgi" :=
    List.append_cancel_left (List.append_cancel_right hends)
  have htype : mediaType "page.html.fr" = "text/html" := by decide +kernel
  refine ⟨hsilent, hroot, hfile, hshares, hsame, by decide +kernel, by decide +kernel, ?_⟩
  rw [← htype]
  exact hsends (by decide +kernel) (.inl rfl) .ok hresult (by decide)

end Mount

end Webroot
