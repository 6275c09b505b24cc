import Depot.Proofs.Bytes.Percent
import Depot.Proofs.Content.Key
import Depot.Url.Parser

/-!
# Addresses below a path

What becomes of an address that ends in a slash if names of letters and digits are appended to it:
the URL is the same but for its path, to which the names are appended as they are. Nothing in them
is white space, ends the part that names the host, begins a query, means a directory above, or has to
be escaped.

Headlines
* **`parse_eq_ok_iff`**: reading a URL that has neither query nor fragment.
* **`parse_append`**: reading an address with names appended to it.
-/

namespace Depot

open Content (isPlain)

/-- Letters, digits and slashes. -/
def InNames (c : Char) : Prop := isPlain c = true ∨ c = '/'

/-- Of letters and digits something can be checked one by one. -/
theorem forall_isPlain {P : Char → Prop}
    (h : ∀ n : Fin 128, isPlain (Char.ofNat n) = true → P (Char.ofNat n)) {c : Char}
    (hc : isPlain c = true) : P c := by
  have hlt : c.toNat < 128 := Content.val_lt_of_isPlain hc
  have hcode := h ⟨c.toNat, hlt⟩
  rw [Char.ofNat_toNat] at hcode
  exact hcode hc

theorem InNames.elim {P : Char → Prop}
    (h : ∀ n : Fin 128, isPlain (Char.ofNat n) = true → P (Char.ofNat n)) (hslash : P '/')
    {c : Char} (hc : InNames c) : P c := by
  rcases hc with hplain | rfl
  · exact forall_isPlain h hplain
  · exact hslash

namespace Url

/-! ### Paths -/

theorem isUp_of_plain {segment : List Char} (h : ∀ c ∈ segment, isPlain c = true) :
    isUp segment = false ∧ isHere segment = false := by
  have hlower : ∀ c ∈ segment.map Char.toLower, c ≠ '.' ∧ c ≠ '%' := by
    intro c hc
    obtain ⟨d, hd, rfl⟩ := List.mem_map.mp hc
    exact forall_isPlain (P := fun d => d.toLower ≠ '.' ∧ d.toLower ≠ '%') (by decide +kernel)
      (h d hd)
  -- Every name that means a directory begins with a dot or an escape.
  have hne : ∀ first rest, first = '.' ∨ first = '%' →
      String.ofList (segment.map Char.toLower) ≠ String.ofList (first :: rest) := by
    intro first rest hfirst heq
    have hmem : first ∈ segment.map Char.toLower := by
      rw [String.ofList_injective heq]
      exact List.mem_cons_self
    obtain ⟨hdot, hescape⟩ := hlower first hmem
    exact hfirst.elim hdot hescape
  unfold isUp isHere
  simp only [List.contains_eq_mem, decide_eq_false_iff_not, List.mem_cons, List.not_mem_nil,
    or_false, not_or]
  exact ⟨⟨hne '.' ['.'] (by simp), hne '.' ['%', '2', 'e'] (by simp),
    hne '%' ['2', 'e', '.'] (by simp), hne '%' ['2', 'e', '%', '2', 'e'] (by simp)⟩,
    hne '.' [] (by simp), hne '%' ['2', 'e'] (by simp)⟩

theorem escaped_of_plain {name : String} (h : ∀ c ∈ name.toList, isPlain c = true) :
    escaped inPath name.toList = name := by
  unfold escaped
  rw [Percent.encodeWith_of_ascii, String.ofList_toList]
  intro c hc
  exact forall_isPlain (P := fun c => c.toNat < 128 ∧ inPath c = true) (by decide +kernel) (h c hc)

/-- Segments that come before others are resolved without them. -/
theorem resolve_append (done : List String) (before : List (List Char)) :
    ∃ done', ∀ after, after ≠ [] → resolve done (before ++ after) = resolve done' after := by
  induction before generalizing done with
  | nil => exact ⟨done, fun _ _ => rfl⟩
  | cons segment before ih =>
    have hstep : ∀ rest, rest ≠ [] → resolve done (segment :: rest) =
        if isUp segment then resolve (done.drop 1) rest
        else if isHere segment then resolve done rest
        else resolve (escaped inPath segment :: done) rest := by
      intro rest hrest
      cases rest with
      | nil => exact absurd rfl hrest
      | cons next rest => rfl
    have hrest : ∀ after : List (List Char), after ≠ [] → before ++ after ≠ [] := fun _ h =>
      List.append_ne_nil_of_right_ne_nil _ h
    by_cases hup : isUp segment = true
    · obtain ⟨done', h⟩ := ih (done.drop 1)
      refine ⟨done', fun after hafter => ?_⟩
      rw [List.cons_append, hstep _ (hrest after hafter), if_pos hup, h after hafter]
    · by_cases hhere : isHere segment = true
      · obtain ⟨done', h⟩ := ih done
        refine ⟨done', fun after hafter => ?_⟩
        rw [List.cons_append, hstep _ (hrest after hafter), if_neg hup, if_pos hhere, h after hafter]
      · obtain ⟨done', h⟩ := ih (escaped inPath segment :: done)
        refine ⟨done', fun after hafter => ?_⟩
        rw [List.cons_append, hstep _ (hrest after hafter), if_neg hup, if_neg hhere, h after hafter]

/-- Names of letters and digits stay as they are. -/
theorem resolve_names (done : List String) {names : List String} (hne : names ≠ [])
    (h : ∀ name ∈ names, ∀ c ∈ name.toList, isPlain c = true) :
    resolve done (names.map String.toList) = done.reverse ++ names := by
  induction names generalizing done with
  | nil => exact absurd rfl hne
  | cons name names ih =>
    have hname := h name List.mem_cons_self
    obtain ⟨hup, hhere⟩ := isUp_of_plain hname
    cases names with
    | nil => simp [resolve, hup, hhere, escaped_of_plain hname]
    | cons next names =>
      have hrest := ih (name :: done) (by simp) fun n hn => h n (List.mem_cons_of_mem name hn)
      rw [List.map_cons] at hrest ⊢
      simp only [List.map_cons, resolve, hup, hhere, escaped_of_plain hname, Bool.false_eq_true,
        if_false] at hrest ⊢
      rw [hrest]
      simp

section

variable {names : List String} (hne : names ≠ [])
  (h : ∀ name ∈ names, ∀ c ∈ name.toList, isPlain c = true)

include h in
theorem inNames_of_mem_intercalate {c : Char} (hc : c ∈ (String.intercalate "/" names).toList) :
    InNames c := by
  induction names with
  | nil => exact absurd hc (by simp)
  | cons name names ih =>
    have hname := h name List.mem_cons_self
    by_cases hlast : names = []
    · rw [hlast, String.intercalate_singleton] at hc
      exact Or.inl (hname c hc)
    · rw [String.intercalate_cons_of_ne_nil hlast, String.toList_append, String.toList_append]
        at hc
      rcases List.mem_append.mp hc with hc | hc
      · rcases List.mem_append.mp hc with hc | hc
        · exact Or.inl (hname c hc)
        · exact Or.inr (List.mem_singleton.mp hc)
      · exact ih (fun n hn => h n (List.mem_cons_of_mem name hn)) hc

/-- A list of texts between slashes that goes on goes on between slashes. -/
theorem intercalate_append_names (before : List String) {names : List String} (hne : names ≠ []) :
    String.intercalate "/" (before ++ [""]) ++ String.intercalate "/" names =
      String.intercalate "/" (before ++ names) := by
  by_cases hbefore : before = []
  · rw [hbefore, List.nil_append, List.nil_append, String.intercalate_singleton, String.empty_append]
  · rw [String.intercalate_append_of_ne_nil hbefore (by simp),
      String.intercalate_append_of_ne_nil hbefore hne, String.intercalate_singleton,
      String.append_empty]

include hne h

/-- Names that follow a slash, or nothing, are appended to the path. -/
theorem rootedPath_append {text : List Char} (htext : text = [] ∨ text.getLast? = some '/') :
    rootedPath true (text ++ (String.intercalate "/" names).toList) =
      rootedPath true text ++ String.intercalate "/" names := by
  -- Backslashes count as slashes; there are none in the names.
  have hkept : (String.intercalate "/" names).toList.map (fun c => if c == '\\' then '/' else c) =
      (String.intercalate "/" names).toList := by
    refine (List.map_congr_left fun c hc => ?_).trans (List.map_id _)
    have hc' : c ≠ '\\' :=
      (inNames_of_mem_intercalate h hc).elim (P := fun c => c ≠ '\\') (by decide +kernel) (by decide)
    exact if_neg (by simpa using hc')
  have hpieces : Text.pieces '/' (String.intercalate "/" names).toList =
      names.map String.toList := by
    rw [String.toList_intercalate]
    refine Text.pieces_intercalate (by simpa using hne) fun part hpart hslash => ?_
    obtain ⟨name, hname, rfl⟩ := List.mem_map.mp hpart
    exact absurd (h name hname '/' hslash) (by decide)
  obtain ⟨before, hbefore, hafter⟩ : ∃ before,
      Text.pieces '/' (text.map fun c => if c == '\\' then '/' else c) = before ++ [[]] ∧
      Text.pieces '/' ((text ++ (String.intercalate "/" names).toList).map
        fun c => if c == '\\' then '/' else c) = before ++ names.map String.toList := by
    rw [List.map_append, hkept]
    rcases htext with rfl | hlast
    · exact ⟨[], rfl, hpieces⟩
    · obtain ⟨start, rfl⟩ := List.getLast?_eq_some_iff.mp hlast
      refine ⟨Text.pieces '/' (start.map fun c => if c == '\\' then '/' else c), ?_, ?_⟩
      · rw [List.map_append]
        exact Text.pieces_append '/' _ []
      · rw [List.map_append, List.append_assoc, ← hpieces]
        exact Text.pieces_append '/' _ _
  obtain ⟨done, hdone⟩ := resolve_append [] before
  have hempty : resolve done [[]] = done.reverse ++ [""] := by
    have hescaped : escaped inPath [] = "" := by decide
    simp [resolve, isUp, isHere, hescaped]
  have hsegments : names.map String.toList ≠ [] := fun hnil => hne (List.map_eq_nil_iff.mp hnil)
  unfold rootedPath
  simp only [if_true]
  rw [hbefore, hafter, hdone _ hsegments, hdone [[]] (List.cons_ne_nil _ _), hempty,
    resolve_names done hne h, String.append_assoc, intercalate_append_names _ hne]

theorem pathAfterHost_append {text : List Char} (htext : text.getLast? = some '/') :
    pathAfterHost true (text ++ (String.intercalate "/" names).toList) =
      pathAfterHost true text ++ String.intercalate "/" names := by
  cases text with
  | nil => exact absurd htext (by simp)
  | cons c rest =>
    rw [List.cons_append]
    simp only [pathAfterHost]
    by_cases hslash : isSlash true c = true
    · rw [if_pos hslash, if_pos hslash]
      refine rootedPath_append hne h ?_
      by_cases hrest : rest = []
      · exact Or.inl hrest
      · exact Or.inr ((List.getLast?_cons_of_ne_nil hrest).symm.trans htext)
    · rw [if_neg hslash, if_neg hslash]
      exact rootedPath_append hne h (Or.inr htext)

end

/-! ### Hosts -/

section

variable {u v : Url} {text : List Char}

theorem map_eq_ok_iff {α β : Type} {x : Except Error α} {f : α → β} {b : β} :
    x.map f = .ok b ↔ ∃ a, x = .ok a ∧ f a = b := by
  cases x <;> simp [Except.map]

/-- Reading the part that names the host leaves the scheme. -/
theorem parseAuthority_scheme (h : parseAuthority u text = .ok v) : v.scheme = u.scheme := by
  unfold parseAuthority at h
  simp only [bind, Except.bind, throw, throwThe, MonadExceptOf.throw, pure, Except.pure] at h
  -- A success sets other parts, whatever is read.
  repeat' split at h
  all_goals cases h
  all_goals simp only
  all_goals split <;> rfl

theorem parseWithHost_eq (u : Url) (text : List Char) : parseWithHost u text =
    (parseAuthority u (text.takeWhile fun c => !endsAuthority (isSpecial u.scheme) c)).map fun w =>
      { w with
        path := pathAfterHost (isSpecial u.scheme)
          (text.dropWhile fun c => !endsAuthority (isSpecial u.scheme) c) } := rfl

/-- Whatever is read of a URL, its scheme is as it was found. -/
theorem parseBody_scheme (h : parseBody u text = .ok v) : v.scheme = u.scheme := by
  have hhost : ∀ {text}, parseWithHost u text = .ok v → v.scheme = u.scheme := by
    intro text h
    rw [parseWithHost_eq] at h
    obtain ⟨w, hw, rfl⟩ := map_eq_ok_iff.mp h
    exact (parseAuthority_scheme hw :)
  have hfile : parseFile u text = .ok v → v.scheme = u.scheme := by
    intro h
    unfold parseFile at h
    simp only [bind, Except.bind, pure, Except.pure] at h
    repeat' split at h
    all_goals cases h
    all_goals rfl
  unfold parseBody at h
  by_cases hf : u.scheme = "file"
  · rw [if_pos hf] at h
    exact hfile h
  · rw [if_neg hf] at h
    by_cases hs : isSpecial u.scheme = true
    · rw [if_pos hs] at h
      exact hhost h
    · rw [if_neg hs] at h
      split at h
      · exact hhost h
      · cases h
        rfl
      · cases h
        rfl

/-- A known scheme needs a host. -/
theorem parseAuthority_nil (hspecial : isSpecial u.scheme = true) :
    parseAuthority u [] = .error .emptyHost := by
  unfold parseAuthority
  rw [hspecial]
  rfl

variable {names : List String} (hne : names ≠ [])
  (hplain : ∀ name ∈ names, ∀ c ∈ name.toList, isPlain c = true)

include hne hplain

/-- Names that follow a slash after the host go to the path. -/
theorem parseWithHost_append (hspecial : isSpecial u.scheme = true)
    (htext : text.getLast? = some '/') (h : parseWithHost u text = .ok v) :
    parseWithHost u (text ++ (String.intercalate "/" names).toList) =
      .ok { v with path := v.path ++ String.intercalate "/" names } := by
  have hslash : '/' ∈ text := List.mem_of_getLast? htext
  have hleft := Text.dropWhile_ne_nil_of_mem (p := fun c => !endsAuthority true c) hslash rfl
  rw [parseWithHost_eq, hspecial] at h ⊢
  obtain ⟨w, hw, rfl⟩ := map_eq_ok_iff.mp h
  refine map_eq_ok_iff.mpr ⟨w, ?_, ?_⟩
  · rw [Text.takeWhile_append_of_mem hslash rfl]
    exact hw
  · rw [Text.dropWhile_append_of_ne_nil hleft, pathAfterHost_append hne hplain]
    rw [Text.getLast?_dropWhile hleft, htext]

theorem parseBody_append (hspecial : isSpecial u.scheme = true) (hfile : u.scheme ≠ "file")
    (htext : text.getLast? = some '/') (h : parseBody u text = .ok v) :
    parseBody u (text ++ (String.intercalate "/" names).toList) =
      .ok { v with path := v.path ++ String.intercalate "/" names } := by
  unfold parseBody at h ⊢
  rw [if_neg hfile, if_pos hspecial] at h ⊢
  -- If there were slashes only, there would be no host.
  have hleft : text.dropWhile (isSlash true) ≠ [] := by
    intro hnil
    rw [hnil, parseWithHost_eq] at h
    obtain ⟨w, hw, -⟩ := map_eq_ok_iff.mp h
    rw [List.takeWhile_nil, parseAuthority_nil hspecial] at hw
    exact absurd hw (by simp)
  rw [Text.dropWhile_append_of_ne_nil hleft]
  exact parseWithHost_append hne hplain hspecial ((Text.getLast?_dropWhile hleft).trans htext) h

end

/-! ### Addresses -/

section

variable {s scheme : String} {u : Url} {text rest : List Char}

theorem splitScheme?_eq_some_iff : splitScheme? text = some (scheme, rest) ↔
    ∃ name first, Text.cut ':' text = some (name, rest) ∧ name.head? = some first ∧
      (first.isAlpha && name.all fun c => c.isAlphanum || "+-.".toList.contains c) = true ∧
      String.ofList (name.map Char.toLower) = scheme := by
  unfold splitScheme?
  simp only [bind, Option.bind_eq_some_iff, Prod.exists, Option.ite_none_right_eq_some,
    Option.some.injEq, Prod.mk.injEq]
  constructor
  · rintro ⟨name, rest', hcut, first, hfirst, hname, hscheme, rfl⟩
    exact ⟨name, first, hcut, hfirst, hname, hscheme⟩
  · rintro ⟨name, first, hcut, hfirst, hname, hscheme⟩
    exact ⟨name, rest, hcut, first, hfirst, hname, hscheme, rfl⟩

/-- Without their marks there are neither query nor fragment. -/
theorem parse_of_rest (hsplit : splitScheme? (significant s) = some (scheme, rest))
    (hfragment : '#' ∉ rest) (hquery : '?' ∉ rest) :
    parse s = (parseBody { scheme := scheme } rest).map fun v =>
      { v with query := none, fragment := none } := by
  unfold parse
  rw [hsplit]
  simp only [Text.cut_eq_none_iff.mpr hfragment, Text.cut_eq_none_iff.mpr hquery, Option.map_none]
  cases parseBody { scheme := scheme } rest <;> rfl

/-- A URL that has neither query nor fragment is written without their marks. -/
theorem rest_of_parse (h : parse s = .ok u) (hquery : u.query = none)
    (hfragment : u.fragment = none) :
    ∃ scheme rest, splitScheme? (significant s) = some (scheme, rest) ∧ '#' ∉ rest ∧ '?' ∉ rest := by
  unfold parse at h
  cases hsplit : splitScheme? (significant s) with
  | none =>
    rw [hsplit] at h
    exact absurd h (by simp)
  | some split =>
    obtain ⟨scheme, rest⟩ := split
    rw [hsplit] at h
    simp only [bind, Except.bind, pure, Except.pure] at h
    refine ⟨scheme, rest, rfl, ?_⟩
    cases hf : Text.cut '#' rest with
    | some cutting =>
      rw [hf] at h
      split at h
      · exact absurd h (by simp)
      · cases h
        exact absurd hfragment (by simp)
    | none =>
      refine ⟨Text.cut_eq_none_iff.mp hf, ?_⟩
      cases hq : Text.cut '?' rest with
      | some cutting =>
        simp only [hf, hq] at h
        split at h
        · exact absurd h (by simp)
        · cases h
          exact absurd hquery (by simp)
      | none => exact Text.cut_eq_none_iff.mp hq

/-- What counts of an address goes on with all that is appended after a slash. -/
theorem significant_append {t : String} (hs : s.toList.getLast? = some '/')
    (ht : ∀ c ∈ t.toList, InNames c) :
    significant (s ++ t) = significant s ++ t.toList ∧
      (significant s).getLast? = some '/' := by
  have hkept : ∀ c, InNames c → decide (c.toNat ≤ 0x20) = false ∧
      (!"\t\n\r".toList.contains c) = true := fun c hc =>
    hc.elim (P := fun c => decide (c.toNat ≤ 0x20) = false ∧ (!"\t\n\r".toList.contains c) = true)
      (by decide +kernel) (by decide)
  have hslash : decide (('/' : Char).toNat ≤ 0x20) = false := by decide
  unfold significant
  constructor
  · rw [String.toList_append, Text.stripWhile_append hs hslash fun c hc => (hkept c (ht c hc)).1,
      List.filter_append]
    congr 1
    exact List.filter_eq_self.mpr fun c hc => (hkept c (ht c hc)).2
  · rw [Text.stripWhile_of_getLast? hs hslash]
    have hleft := Text.dropWhile_ne_nil_of_mem (p := fun c => decide (c.toNat ≤ 0x20))
      (List.mem_of_getLast? hs) hslash
    obtain ⟨start, hstart⟩ := List.getLast?_eq_some_iff.mp ((Text.getLast?_dropWhile hleft).trans hs)
    rw [hstart, List.filter_append]
    exact List.getLast?_concat

/-- **An address that ends in a slash, with names appended to it**, is a URL whose path goes on with
the names as they are. -/
theorem parse_append {names : List String} (hs : s.toList.getLast? = some '/')
    (h : parse s = .ok u) (hquery : u.query = none) (hfragment : u.fragment = none)
    (hspecial : isSpecial u.scheme = true) (hfile : u.scheme ≠ "file") (hne : names ≠ [])
    (hplain : ∀ name ∈ names, ∀ c ∈ name.toList, isPlain c = true) :
    parse (s ++ String.intercalate "/" names) =
      .ok { u with path := u.path ++ String.intercalate "/" names } := by
  have hnames : ∀ c ∈ (String.intercalate "/" names).toList, InNames c := fun c hc =>
    inNames_of_mem_intercalate hplain hc
  have hmarks : ∀ c, InNames c → c ≠ '#' ∧ c ≠ '?' := fun c hc =>
    hc.elim (P := fun c => c ≠ '#' ∧ c ≠ '?') (by decide +kernel) (by decide)
  obtain ⟨scheme, rest, hsplit, hnohash, hnoquestion⟩ := rest_of_parse h hquery hfragment
  obtain ⟨name, first, hcut, hfirst, hname, hscheme⟩ := splitScheme?_eq_some_iff.mp hsplit
  obtain ⟨hgoes, hends⟩ := significant_append hs hnames
  have hlast : rest.getLast? = some '/' := by
    rw [(Text.cut_eq_some_iff.mp hcut).1, List.getLast?_append] at hends
    by_cases hrest : rest = []
    · rw [hrest] at hends
      rw [List.getLast?_singleton, Option.some_or] at hends
      exact absurd hends (by decide)
    · rw [List.getLast?_cons_of_ne_nil hrest, List.getLast?_eq_some_getLast hrest, Option.some_or]
        at hends
      rw [List.getLast?_eq_some_getLast hrest, hends]
  have hsplit' : splitScheme? (significant (s ++ String.intercalate "/" names)) =
      some (scheme, rest ++ (String.intercalate "/" names).toList) := by
    rw [hgoes]
    exact splitScheme?_eq_some_iff.mpr
      ⟨name, first, Text.cut_append hcut _, hfirst, hname, hscheme⟩
  rw [parse_of_rest hsplit hnohash hnoquestion] at h
  obtain ⟨v, hbody, rfl⟩ := map_eq_ok_iff.mp h
  have hv : v.scheme = scheme := parseBody_scheme hbody
  rw [parse_of_rest hsplit' ?_ ?_, parseBody_append hne hplain (hv ▸ hspecial) (hv ▸ hfile) hlast
    hbody]
  · rfl
  · intro hmem
    exact (List.mem_append.mp hmem).elim hnohash fun hmem => (hmarks _ (hnames _ hmem)).1 rfl
  · intro hmem
    exact (List.mem_append.mp hmem).elim hnoquestion fun hmem => (hmarks _ (hnames _ hmem)).2 rfl

end

end Url

end Depot
