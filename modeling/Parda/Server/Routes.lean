import Mathlib.Data.Nat.Notation
import Parda.Lib.Url

/-!
# The relay's router

The routes of `server/src/lib.rs` `app` and what a request reaches: the router matches the path's
segments as they are on the wire, and a handler's `Path` extractor percent-decodes what the
parameters captured.
-/

namespace Parda

namespace Server

inductive Method where
  | get
  | post
  | delete
deriving DecidableEq, Repr

/-- The handlers of `server/src/routes.rs`. -/
inductive Handler where
  | health
  | uploadPrekeyBundle
  | getPrekeyBundle
  | issueSenderCertificate
  | getTrustRoot
  | fetchMessages
  | submitMessage
  | deleteMessage
  | stagePull
  | fetchPull
deriving DecidableEq, Repr

inductive PathPart where
  | segment (text : String)
  | param (name : String)
deriving DecidableEq, Repr

structure Route where
  path : List PathPart
  methods : List (Method × Handler)
deriving DecidableEq, Repr

open PathPart in
/-- The paths stand in the order in which the router prefers them: at one place of the path a
literal segment goes before a parameter. -/
def app : List Route :=
  [⟨[segment "health"], [(.get, .health)]⟩,
   ⟨[segment "v1", segment "keys", param "user_id"],
    [(.post, .uploadPrekeyBundle), (.get, .getPrekeyBundle)]⟩,
   ⟨[segment "v1", segment "certs", segment "trust-root"], [(.get, .getTrustRoot)]⟩,
   ⟨[segment "v1", segment "certs", param "user_id"], [(.post, .issueSenderCertificate)]⟩,
   ⟨[segment "v1", segment "messages", param "user_id"],
    [(.get, .fetchMessages), (.post, .submitMessage)]⟩,
   ⟨[segment "v1", segment "messages", param "user_id", param "msg_id"],
    [(.delete, .deleteMessage)]⟩,
   ⟨[segment "v1", segment "pulls"], [(.post, .stagePull)]⟩,
   ⟨[segment "v1", segment "pulls", param "rendezvous_token"], [(.get, .fetchPull)]⟩]

/-- What the relay does with a request, before its handler runs. -/
inductive Outcome where
  | notFound
  | methodNotAllowed
  | badRequest
  | found (handler : Handler) (params : List String)
deriving DecidableEq, Repr

/-- `emptyParam` says whether the router lets a parameter be empty, at the end of the path and
before more of it. -/
def matchPath (emptyParam : Bool → Bool) : List PathPart → List (List UInt8) →
    Option (List (List UInt8))
  | [], [] => some []
  | .segment text :: parts, s :: segs =>
    if s = Utf8.encode text then matchPath emptyParam parts segs else none
  | .param _ :: parts, s :: segs =>
    if s = [] ∧ emptyParam segs.isEmpty = false then none
    else (matchPath emptyParam parts segs).map (s :: ·)
  | _, _ => none

/-- `Path`: a value that is not UTF-8 after percent-decoding is refused. -/
def decodeParam (s : List UInt8) : Option String := Utf8.decode (Url.percentDecode s)

def dispatch (emptyParam : Bool → Bool) (method : Method) (path : List (List UInt8)) : Outcome :=
  match app.findSome? fun route =>
      (matchPath emptyParam route.path path).map fun captured => (route, captured) with
  | none => .notFound
  | some (route, captured) =>
    match route.methods.lookup method with
    | none => .methodNotAllowed
    | some handler =>
      match captured.mapM decodeParam with
      | none => .badRequest
      | some params => .found handler params

/-- The texts of a path whose parameters are `ids`. -/
def fill : List PathPart → List String → List String
  | .segment text :: parts, ids => text :: fill parts ids
  | .param _ :: parts, id :: ids => id :: fill parts ids
  | _, _ => []

def paramCount : List PathPart → ℕ
  | .segment _ :: parts => paramCount parts
  | .param _ :: parts => paramCount parts + 1
  | [] => 0

/-- Only parameters that the router lets be empty are. -/
def EmptiesAllowed (emptyParam : Bool → Bool) : List PathPart → List String → Prop
  | .segment _ :: parts, ids => EmptiesAllowed emptyParam parts ids
  | .param _ :: parts, id :: ids =>
    (id = "" → emptyParam parts.isEmpty = true) ∧ EmptiesAllowed emptyParam parts ids
  | _, _ => True

/-- Parameters that reach the relay as they are: parsing keeps each of them whole, decoding finds
no escape in them, the end of the path is not trimmed away, and the router takes the empty ones. -/
structure Survives (emptyParam : Bool → Bool) (parts : List PathPart) (ids : List String) :
    Prop where
  plain : ∀ id ∈ ids, Url.Plain id.toList
  noEscape : ∀ id ∈ ids, Url.hasEscape (Utf8.encode id) = false
  kept : ∀ text ∈ (fill parts ids).getLast?, ∀ c ∈ text.toList.getLast?,
    Url.isC0ControlOrSpace c = false
  empties : EmptiesAllowed emptyParam parts ids

/-- A request reaches a handler through one route of the table. -/
lemma exists_route_of_dispatch {emptyParam : Bool → Bool} {method : Method}
    {path : List (List UInt8)} {handler : Handler} {params : List String}
    (h : dispatch emptyParam method path = .found handler params) :
    ∃ route ∈ app, ∃ captured, matchPath emptyParam route.path path = some captured ∧
      route.methods.lookup method = some handler ∧ captured.mapM decodeParam = some params := by
  unfold dispatch at h
  split at h
  · cases h
  · rename_i route captured hfind
    split at h
    · cases h
    · rename_i found hmethod
      split at h
      · cases h
      · rename_i values hparams
        injection h with hhandler hvalues
        obtain ⟨r, hr, hmatch⟩ := List.exists_of_findSome?_eq_some hfind
        rw [Option.map_eq_some_iff] at hmatch
        obtain ⟨c, hc, hpair⟩ := hmatch
        injection hpair with h₁ h₂
        subst h₁ h₂ hhandler hvalues
        exact ⟨r, hr, c, hc, hmethod, hparams⟩

lemma mapM_decodeParam_cons {s : List UInt8} {rest : List (List UInt8)} {params : List String} :
    (s :: rest).mapM decodeParam = some params ↔
      ∃ id ids, decodeParam s = some id ∧ rest.mapM decodeParam = some ids ∧
        params = id :: ids := by
  rw [List.mapM_cons, Option.bind_eq_bind, Option.bind_eq_some_iff]
  simp only [Option.bind_eq_bind, Option.bind_eq_some_iff, Option.pure_def, Option.some.injEq]
  constructor
  · rintro ⟨id, hid, ids, hids, rfl⟩
    exact ⟨id, ids, hid, hids, rfl⟩
  · rintro ⟨id, ids, hid, hids, rfl⟩
    exact ⟨id, hid, ids, hids, rfl⟩

/-- What a route's literal segments and its decoded parameters say together about the path. -/
lemma decode_of_matchPath {emptyParam : Bool → Bool} {parts : List PathPart}
    {path captured : List (List UInt8)} {params : List String}
    (hlit : ∀ text, .segment text ∈ parts → Url.hasEscape (Utf8.encode text) = false)
    (hmatch : matchPath emptyParam parts path = some captured)
    (hparams : captured.mapM decodeParam = some params) :
    path.map Url.percentDecode = (fill parts params).map Utf8.encode := by
  induction parts generalizing path captured params with
  | nil =>
    match path with
    | [] => rfl
    | s :: segs => cases hmatch
  | cons part parts ih =>
    have htail := fun text hm => hlit text (List.mem_cons_of_mem part hm)
    match path with
    | [] => cases part <;> cases hmatch
    | s :: segs =>
      match part with
      | .segment text =>
        rw [matchPath] at hmatch
        split at hmatch
        · rename_i hs
          rw [List.map_cons, fill, List.map_cons, hs,
            Url.percentDecode_of_not_hasEscape _ (hlit text (by simp)),
            ih htail hmatch hparams]
        · cases hmatch
      | .param name =>
        rw [matchPath] at hmatch
        split at hmatch
        · cases hmatch
        · rw [Option.map_eq_some_iff] at hmatch
          obtain ⟨rest, hrest, rfl⟩ := hmatch
          obtain ⟨id, ids, hid, hids, rfl⟩ := mapM_decodeParam_cons.mp hparams
          rw [List.map_cons, fill, List.map_cons, Utf8.encode_of_decode hid,
            ih htail hrest hids]

lemma exists_of_matchPath_cons {emptyParam : Bool → Bool} {part : PathPart}
    {parts : List PathPart} {path captured : List (List UInt8)}
    (h : matchPath emptyParam (part :: parts) path = some captured) :
    ∃ s segs rest, path = s :: segs ∧ matchPath emptyParam parts segs = some rest ∧
      ∀ text, part = .segment text → s = Utf8.encode text := by
  match part, path with
  | .segment text, [] => cases h
  | .param name, [] => cases h
  | .segment text, s :: segs =>
    rw [matchPath] at h
    split at h
    · rename_i hs
      refine ⟨s, segs, captured, rfl, h, ?_⟩
      rintro _ ⟨⟩
      exact hs
    · cases h
  | .param name, s :: segs =>
    rw [matchPath] at h
    split at h
    · cases h
    · rw [Option.map_eq_some_iff] at h
      obtain ⟨rest, hrest, -⟩ := h
      exact ⟨s, segs, rest, rfl, hrest, fun _ => nofun⟩

lemma length_eq_of_matchPath {emptyParam : Bool → Bool} {parts : List PathPart}
    {path captured : List (List UInt8)} (h : matchPath emptyParam parts path = some captured) :
    path.length = parts.length := by
  induction parts generalizing path captured with
  | nil =>
    match path with
    | [] => rfl
    | s :: segs => cases h
  | cons part parts ih =>
    obtain ⟨s, segs, rest, rfl, hrest, -⟩ := exists_of_matchPath_cons h
    rw [List.length_cons, List.length_cons, ih hrest]

lemma emptiesAllowed_of_matchPath {emptyParam : Bool → Bool} {parts : List PathPart}
    {path captured : List (List UInt8)} {params : List String}
    (hmatch : matchPath emptyParam parts path = some captured)
    (hparams : captured.mapM decodeParam = some params) :
    EmptiesAllowed emptyParam parts params := by
  induction parts generalizing path captured params with
  | nil => trivial
  | cons part parts ih =>
    match path with
    | [] => cases part <;> cases hmatch
    | s :: segs =>
      match part with
      | .segment text =>
        rw [matchPath] at hmatch
        split at hmatch
        · exact ih hmatch hparams
        · cases hmatch
      | .param name =>
        rw [matchPath] at hmatch
        split at hmatch
        · cases hmatch
        · rename_i hempty
          rw [Option.map_eq_some_iff] at hmatch
          obtain ⟨rest, hrest, rfl⟩ := hmatch
          obtain ⟨id, ids, hid, hids, rfl⟩ := mapM_decodeParam_cons.mp hparams
          refine ⟨?_, ih hrest hids⟩
          rintro rfl
          have hs : s = [] := (Url.percentDecode_eq_nil_iff s).mp (Utf8.encode_of_decode hid).symm
          have hparts : segs.isEmpty = parts.isEmpty := by
            have := length_eq_of_matchPath hrest
            rw [Bool.eq_iff_iff, List.isEmpty_iff_length_eq_zero, List.isEmpty_iff_length_eq_zero,
              this]
          rw [← hparts]
          simpa [hs] using hempty

lemma mem_fill {parts : List PathPart} {ids : List String} (hlen : paramCount parts = ids.length)
    {id : String} (hid : id ∈ ids) : id ∈ fill parts ids := by
  induction parts generalizing ids with
  | nil =>
    rw [List.length_eq_zero_iff.mp hlen.symm] at hid
    cases hid
  | cons part parts ih =>
    match part with
    | .segment text => exact List.mem_cons_of_mem _ (ih hlen hid)
    | .param name =>
      match ids with
      | [] => cases hid
      | i :: ids =>
        rcases List.mem_cons.mp hid with rfl | hid
        · exact List.mem_cons_self
        · exact List.mem_cons_of_mem _ (ih (Nat.succ.inj hlen) hid)

lemma length_fill {parts : List PathPart} {ids : List String}
    (hlen : paramCount parts = ids.length) : (fill parts ids).length = parts.length := by
  induction parts generalizing ids with
  | nil => rfl
  | cons part parts ih =>
    match part, ids with
    | .segment text, ids => exact congrArg Nat.succ (ih hlen)
    | .param name, [] => cases hlen
    | .param name, i :: ids => exact congrArg Nat.succ (ih (Nat.succ.inj hlen))

lemma of_mem_fill {parts : List PathPart} {ids : List String} {text : String}
    (h : text ∈ fill parts ids) : .segment text ∈ parts ∨ text ∈ ids := by
  induction parts generalizing ids with
  | nil => cases h
  | cons part parts ih =>
    match part, ids with
    | .segment t, ids =>
      rcases List.mem_cons.mp h with rfl | h
      · exact Or.inl List.mem_cons_self
      · exact (ih h).imp_left (List.mem_cons_of_mem _)
    | .param name, [] => cases h
    | .param name, i :: ids =>
      rcases List.mem_cons.mp h with rfl | h
      · exact Or.inr List.mem_cons_self
      · exact (ih h).imp (List.mem_cons_of_mem _) (List.mem_cons_of_mem _)

/-- The path made of a route's own texts matches the route. -/
lemma matchPath_fill {emptyParam : Bool → Bool} {parts : List PathPart} {ids : List String}
    (hlit : ∀ text, .segment text ∈ parts → Url.encodeSegment text.toList = Utf8.encode text)
    (hlen : paramCount parts = ids.length) (hempty : EmptiesAllowed emptyParam parts ids) :
    matchPath emptyParam parts ((fill parts ids).map fun t => Url.encodeSegment t.toList) =
      some (ids.map fun id => Url.encodeSegment id.toList) := by
  induction parts generalizing ids with
  | nil =>
    match ids with
    | [] => rfl
    | i :: ids => cases hlen
  | cons part parts ih =>
    have htail := fun text hm => hlit text (List.mem_cons_of_mem part hm)
    match part, ids with
    | .segment text, ids =>
      rw [fill, List.map_cons, matchPath, if_pos (hlit text List.mem_cons_self)]
      exact ih htail hlen hempty
    | .param name, i :: ids =>
      have hlen' : paramCount parts = ids.length := Nat.succ.inj hlen
      rw [fill, List.map_cons, matchPath, if_neg, ih htail hlen' hempty.2]
      · rfl
      · rintro ⟨hs, he⟩
        have hdec := Url.percentDecode_encodeSegment i.toList
        rw [hs, ← Utf8.encode_eq_flatMap] at hdec
        have hi : Utf8.encode i = Utf8.encode "" := (Url.percentDecode_eq_nil_iff _).mp hdec.symm
        have hparts : ((fill parts ids).map fun t => Url.encodeSegment t.toList).isEmpty =
            parts.isEmpty := by
          rw [Bool.eq_iff_iff, List.isEmpty_iff_length_eq_zero, List.isEmpty_iff_length_eq_zero,
            List.length_map, length_fill hlen']
        rw [hparts, hempty.1 (Utf8.encode_inj.mp hi)] at he
        cases he

/-- Two paths that some request matches both of. -/
def compatible : List PathPart → List PathPart → Bool
  | [], [] => true
  | .segment text :: parts, .segment text' :: parts' => text = text' && compatible parts parts'
  | .segment _ :: parts, .param _ :: parts' => compatible parts parts'
  | .param _ :: parts, .segment _ :: parts' => compatible parts parts'
  | .param _ :: parts, .param _ :: parts' => compatible parts parts'
  | _, _ => false

lemma compatible_of_matchPath {emptyParam : Bool → Bool} {parts parts' : List PathPart}
    {path captured captured' : List (List UInt8)}
    (h : matchPath emptyParam parts path = some captured)
    (h' : matchPath emptyParam parts' path = some captured') :
    compatible parts parts' = true := by
  induction parts generalizing parts' path captured captured' with
  | nil =>
    match parts', path with
    | [], _ => rfl
    | part :: _, [] => cases part <;> cases h'
    | _ :: _, _ :: _ => cases h
  | cons part parts ih =>
    obtain ⟨s, segs, rest, rfl, hrest, hs⟩ := exists_of_matchPath_cons h
    match parts' with
    | [] => cases h'
    | part' :: parts' =>
      obtain ⟨_, _, rest', ⟨⟩, hrest', hs'⟩ := exists_of_matchPath_cons h'
      have htail := ih hrest hrest'
      match part, part' with
      | .segment text, .segment text' =>
        have htext : text = text' := by
          rw [← Utf8.encode_inj, ← hs text rfl, ← hs' text' rfl]
        rw [compatible, htail, htext]
        simp
      | .segment _, .param _ => exact htail
      | .param _, .segment _ => exact htail
      | .param _, .param _ => exact htail

def literals (parts : List PathPart) : List String :=
  parts.filterMap fun
    | .segment text => some text
    | .param _ => none

lemma mem_literals {parts : List PathPart} {text : String} :
    text ∈ literals parts ↔ .segment text ∈ parts := by
  unfold literals
  rw [List.mem_filterMap]
  constructor
  · rintro ⟨part, hpart, h⟩
    match part with
    | .segment t =>
      injection h with h
      rwa [h] at hpart
    | .param name => cases h
  · exact fun h => ⟨_, h, rfl⟩

lemma literals_app : ∀ route ∈ app, ∀ text ∈ literals route.path,
    Url.Plain text.toList ∧ Url.hasEscape (Utf8.encode text) = false ∧
      Url.encodeSegment text.toList = Utf8.encode text := by
  decide +kernel

lemma handler_unique : ∀ r ∈ app, ∀ r' ∈ app, ∀ p ∈ r.methods, ∀ p' ∈ r'.methods,
    p.2 = p'.2 → r = r' := by
  decide +kernel

lemma mem_of_lookup {methods : List (Method × Handler)} {method : Method} {handler : Handler}
    (h : methods.lookup method = some handler) : (method, handler) ∈ methods := by
  obtain ⟨l, r, rfl, -⟩ := List.lookup_eq_some_iff.mp h
  simp

variable {emptyParam : Bool → Bool} {method : Method} {handler : Handler} {route : Route}

lemma dispatch_fill (hroute : route ∈ app) (hmethod : route.methods.lookup method = some handler)
    (hrival : ∀ r ∈ app, compatible r.path route.path = true → r = route) {ids : List String}
    (hlen : paramCount route.path = ids.length) (hsurvives : Survives emptyParam route.path ids) :
    dispatch emptyParam method ((fill route.path ids).map fun t => Url.encodeSegment t.toList) =
      .found handler ids := by
  have hlit : ∀ text, .segment text ∈ route.path →
      Url.encodeSegment text.toList = Utf8.encode text := fun text ht =>
    (literals_app route hroute text (mem_literals.mpr ht)).2.2
  have hmatch := matchPath_fill hlit hlen hsurvives.empties
  have hdecode : (ids.map fun id => Url.encodeSegment id.toList).mapM decodeParam = some ids := by
    have hids := hsurvives.noEscape
    clear hsurvives hlen hmatch
    induction ids with
    | nil => rfl
    | cons id ids ih =>
      rw [List.map_cons, mapM_decodeParam_cons]
      refine ⟨id, ids, ?_, ih fun i hi => hids i (List.mem_cons_of_mem _ hi), rfl⟩
      unfold decodeParam
      rw [Url.percentDecode_encodeSegment, ← Utf8.encode_eq_flatMap,
        Url.percentDecode_of_not_hasEscape _ (hids id List.mem_cons_self), Utf8.decode_encode]
  have hfind : app.findSome? (fun r =>
      (matchPath emptyParam r.path
        ((fill route.path ids).map fun t => Url.encodeSegment t.toList)).map fun captured =>
          (r, captured)) = some (route, ids.map fun id => Url.encodeSegment id.toList) := by
    cases hfind : app.findSome? (fun r =>
        (matchPath emptyParam r.path
          ((fill route.path ids).map fun t => Url.encodeSegment t.toList)).map fun captured =>
            (r, captured)) with
    | none =>
      have := List.findSome?_eq_none_iff.mp hfind route hroute
      rw [hmatch] at this
      cases this
    | some found =>
      obtain ⟨r, hr, hf⟩ := List.exists_of_findSome?_eq_some hfind
      rw [Option.map_eq_some_iff] at hf
      obtain ⟨captured, hcaptured, rfl⟩ := hf
      have hroute' : r = route := hrival r hr (compatible_of_matchPath hcaptured hmatch)
      rw [hroute', hmatch] at hcaptured
      injection hcaptured with hcaptured
      rw [hroute', ← hcaptured]
  unfold dispatch
  rw [hfind]
  dsimp only
  rw [hmethod]
  dsimp only
  rw [hdecode]

/-- A request made by writing `ids` into a route's path reaches the route's handler with these
parameters exactly when they survive the URL. -/
theorem dispatch_eq_found_iff (hroute : route ∈ app)
    (hmethod : route.methods.lookup method = some handler)
    (hrival : ∀ r ∈ app, compatible r.path route.path = true → r = route) {ids : List String}
    (hlen : paramCount route.path = ids.length) (hpath : route.path ≠ []) {target : String}
    (htarget : target.toList = '/' :: Url.joined ((fill route.path ids).map String.toList)) :
    dispatch emptyParam method (Url.path target) = .found handler ids ↔
      Survives emptyParam route.path ids := by
  have hfill : fill route.path ids ≠ [] := by
    rw [← List.length_pos_iff, length_fill hlen]
    exact List.length_pos_iff.mpr hpath
  have hlast : (∀ c ∈ (Url.joined ((fill route.path ids).map String.toList)).getLast?,
      Url.isC0ControlOrSpace c = false) ↔
        ∀ text ∈ (fill route.path ids).getLast?, ∀ c ∈ text.toList.getLast?,
          Url.isC0ControlOrSpace c = false := by
    obtain ⟨front, last, hsplit⟩ := List.eq_nil_or_concat' (fill route.path ids) |>.resolve_left hfill
    rw [hsplit, List.map_append, List.map_singleton, Url.joined_getLast?_iff]
    simp
  constructor
  · intro h
    obtain ⟨r, hr, captured, hmatch, hlookup, hparams⟩ := exists_route_of_dispatch h
    have hr' : r = route := handler_unique r hr route hroute _ (mem_of_lookup hlookup) _
      (mem_of_lookup hmethod) rfl
    rw [hr'] at hmatch
    have hdecode := decode_of_matchPath (fun text ht =>
      (literals_app route hroute text (mem_literals.mpr ht)).2.1) hmatch hparams
    unfold Url.path at hdecode
    rw [htarget, List.map_map] at hdecode
    have hplain := Url.plain_of_decode_eq ((fill route.path ids).map String.toList)
      (by simpa using hfill) (by
        rw [List.map_map]
        refine hdecode.trans (List.map_congr_left fun text _ => ?_)
        exact Utf8.encode_eq_flatMap text)
    rw [hlast] at hplain
    refine ⟨fun id hid => ?_, fun id hid => ?_, hplain.2, emptiesAllowed_of_matchPath hmatch hparams⟩
    · exact (hplain.1 _ (List.mem_map_of_mem (mem_fill hlen hid))).1
    · rw [Utf8.encode_eq_flatMap]
      exact (hplain.1 _ (List.mem_map_of_mem (mem_fill hlen hid))).2
  · intro h
    have hplain : ∀ p ∈ (fill route.path ids).map String.toList, Url.Plain p := by
      intro p hp
      obtain ⟨text, htext, rfl⟩ := List.mem_map.mp hp
      rcases of_mem_fill htext with hlit | hid
      · exact (literals_app route hroute text (mem_literals.mpr hlit)).1
      · exact h.plain text hid
    unfold Url.path
    rw [htarget, Url.segments_joined _ (by simpa using hfill) hplain (hlast.mpr h.kept),
      List.map_map]
    exact dispatch_fill hroute hmethod hrival hlen h

end Server

end Parda
