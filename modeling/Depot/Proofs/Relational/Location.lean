import Depot.Proofs.Text.Occurrence
import Depot.Proofs.Url.Query
import Depot.Relational.Location

/-!
# The addresses of databases

What the log shows of an address, and what is added to an address before it is opened.

The log hides a password up to the first at sign after the scheme, while the parser ends the
password at the last one before the host. A parameter is added unless the text that begins it stands
anywhere in the address, its path and its other parameters included.

Headlines
* **`password_of_parseAuthority`**: the parser takes the whole password, with its at signs.
* **`redact_addressOf`**: a password is hidden up to its first at sign, what follows is shown.
* **`redacted_address`**: so addresses look alike in the log just if their passwords have the same
  rest after that, although all of it is the password.
* **`completed_address`**: an address is completed once, by one parameter after the others.
-/

namespace Depot.Relational

open Text (cut cutText)

variable {scheme user host password : String}

/-! ### What the parser reads -/

/-- A text is cut at the last separator, whatever stands before it. -/
theorem cutLast_append {sep : Char} {before after : List Char} (h : sep ∉ after) :
    Url.cutLast sep (before ++ sep :: after) = some (before, after) := by
  have hreverse : (before ++ sep :: after).reverse = after.reverse ++ sep :: before.reverse := by
    simp
  unfold Url.cutLast
  rw [hreverse, Text.cut_eq_some_iff.mpr ⟨rfl, by simpa using h⟩]
  simp

/-- **The parser takes the whole password**: it ends at the last at sign before the host. -/
theorem password_of_parseAuthority {u v : Url} {user password host : List Char}
    (hcolon : ':' ∉ user) (hat : '@' ∉ host) (hne : password ≠ [])
    (h : u.parseAuthority (user ++ ':' :: password ++ '@' :: host) = .ok v) :
    v.password = some (Url.escaped Url.inUserinfo password) := by
  have hpassword : password.isEmpty = false := by simpa using hne
  unfold Url.parseAuthority at h
  rw [cutLast_append hat] at h
  simp only [Text.cut_eq_some_iff.mpr ⟨rfl, hcolon⟩, hpassword, Bool.false_eq_true, if_false, bind,
    Except.bind, throw, throwThe, MonadExceptOf.throw, pure, Except.pure] at h
  -- Every success has the password, whatever is read of the host and the port.
  repeat' split at h
  all_goals cases h
  all_goals rfl

/-! ### What the log shows -/

/-- An address with a user and a password. -/
def addressOf (scheme user password host : String) : String :=
  scheme ++ "://" ++ user ++ ":" ++ password ++ "@" ++ host

/-- What the log shows of a password: all after its first at sign, up to the one that ends it. -/
def exposed (password : String) : String :=
  match cut '@' password.toList with
  | some (_, rest) => String.ofList rest ++ "@"
  | none => ""

theorem exposed_eq_empty_iff : exposed password = "" ↔ '@' ∉ password.toList := by
  rw [← Text.cut_eq_none_iff]
  unfold exposed
  cases cut '@' password.toList <;> simp

section

variable (hscheme : ¬ "://".toList <:+: scheme.toList) (hcolon : ':' ∉ user.toList)
  (hat : '@' ∉ user.toList)

include hscheme hcolon hat

/-- The log hides what stands before the first at sign. -/
theorem redact_of_first {hidden : String} (hhidden : '@' ∉ hidden.toList) (shown : String) :
    redact (addressOf scheme user hidden shown) = scheme ++ "://" ++ user ++ ":***@" ++ shown := by
  have htext : (addressOf scheme user hidden shown).toList = scheme.toList ++
      (':' :: ['/', '/'] ++ ((user.toList ++ ':' :: hidden.toList) ++ '@' :: shown.toList)) := by
    simp [addressOf]
  have hrest : cutText "://".toList (addressOf scheme user hidden shown).toList =
      some (scheme.toList, (user.toList ++ ':' :: hidden.toList) ++ '@' :: shown.toList) := by
    rw [htext]
    exact Text.cutText_append (by decide) hscheme _
  have huserinfo : cut '@' ((user.toList ++ ':' :: hidden.toList) ++ '@' :: shown.toList) =
      some (user.toList ++ ':' :: hidden.toList, shown.toList) :=
    Text.cut_eq_some_iff.mpr ⟨rfl, by simp [hat, hhidden]⟩
  have huser : cut ':' (user.toList ++ ':' :: hidden.toList) = some (user.toList, hidden.toList) :=
    Text.cut_eq_some_iff.mpr ⟨rfl, hcolon⟩
  unfold redact
  simp only [hrest, huserinfo, huser, Option.bind_eq_bind, Option.bind_some, Option.pure_def,
    Option.getD_some, String.ofList_toList]

/-- **A password is hidden up to its first at sign.** What follows is shown. -/
theorem redact_addressOf (password host : String) :
    redact (addressOf scheme user password host) =
      scheme ++ "://" ++ user ++ ":***@" ++ exposed password ++ host := by
  cases hcut : cut '@' password.toList with
  | none =>
    rw [exposed_eq_empty_iff.mpr (Text.cut_eq_none_iff.mp hcut), String.append_empty]
    exact redact_of_first hscheme hcolon hat (Text.cut_eq_none_iff.mp hcut) host
  | some parts =>
    obtain ⟨hidden, rest⟩ := parts
    obtain ⟨htext, hhidden⟩ := Text.cut_eq_some_iff.mp hcut
    have hpassword : password = String.ofList hidden ++ "@" ++ String.ofList rest := by
      rw [← String.toList_inj, htext]
      simp
    have haddress : addressOf scheme user password host =
        addressOf scheme user (String.ofList hidden) (String.ofList rest ++ "@" ++ host) := by
      rw [hpassword]
      simp only [addressOf, String.append_assoc]
    rw [haddress, redact_of_first hscheme hcolon hat (by simpa using hhidden)]
    simp only [exposed, hcut, String.append_assoc]

/-- **Addresses look alike in the log just if their passwords have the same rest** after the first
at sign, in particular if they have no at sign at all. What is shown of a password is a part of what
is used as one: the parser takes the whole of it. -/
theorem redacted_address (host : String) :
    (∀ password, redact (addressOf scheme user password host) =
      scheme ++ "://" ++ user ++ ":***@" ++ exposed password ++ host) ∧
    (∀ p q, redact (addressOf scheme user p host) = redact (addressOf scheme user q host) ↔
      exposed p = exposed q) ∧
    (∀ password, exposed password = "" ↔ '@' ∉ password.toList) ∧
    ∀ (u v : Url) (password authority : List Char), '@' ∉ authority → password ≠ [] →
      u.parseAuthority (user.toList ++ ':' :: password ++ '@' :: authority) = .ok v →
      v.password = some (Url.escaped Url.inUserinfo password) := by
  have hredact := fun password => redact_addressOf hscheme hcolon hat password host
  refine ⟨hredact, fun p q => ?_, fun _ => exposed_eq_empty_iff,
    fun u v password authority hauthority hne h =>
      password_of_parseAuthority hcolon hauthority hne h⟩
  rw [hredact, hredact, String.append_left_inj, String.append_right_inj]

end

/-- Two passwords without at signs look alike. -/
theorem redacted_address_of_plain : (¬ "://".toList <:+: "mysql".toList) ∧ ':' ∉ "lfs".toList ∧
    '@' ∉ "lfs".toList ∧ redact (addressOf "mysql" "lfs" "hunter2" "db/lfs") =
      redact (addressOf "mysql" "lfs" "a:b" "db/lfs") := by
  have hscheme : ¬ "://".toList <:+: "mysql".toList := by decide
  have hcolon : ':' ∉ "lfs".toList := by decide
  have hat : '@' ∉ "lfs".toList := by decide
  have halike := (redacted_address hscheme hcolon hat "db/lfs").2.1 "hunter2" "a:b"
  exact ⟨hscheme, hcolon, hat, halike.mpr (by decide +kernel)⟩

/-- Of a password with an at sign the log shows the end, although all of it is read as the
password. -/
theorem redaction_shows_end_of_password :
    redact (addressOf "mysql" "lfs" "p@ss" "db/lfs") ≠
      redact (addressOf "mysql" "lfs" "hunter2" "db/lfs") ∧
    (Url.parse (addressOf "mysql" "lfs" "p@ss" "db/lfs")).toOption.map
      (fun u => (u.user, u.password, u.host)) = some ("lfs", some "p%40ss", some "db") := by
  decide +kernel

/-! ### What is opened -/

/-- An address without its query: the text before its first question mark. -/
def beforeQuery (url : String) : String :=
  String.ofList (((cut '?' url.toList).map Prod.fst).getD url.toList)

/-- The query of an address: the text after its first question mark. -/
def queryOf (url : String) : String :=
  String.ofList (((cut '?' url.toList).map Prod.snd).getD [])

/-- Whether a parameter of an address says how to open the file. -/
def NamesMode (url : String) : Prop := ∃ value, ("mode", value) ∈ Url.formPairs (queryOf url)

/-- Whether the text that begins such a parameter stands in an address. -/
def HoldsMode (url : String) : Prop := Dialect.modeParameter.toList <:+: url.toList

section

variable {url path : String}

/-- An address without a question mark has no query. -/
theorem query_of_not_mem (h : '?' ∉ url.toList) : beforeQuery url = url ∧ queryOf url = "" := by
  unfold beforeQuery queryOf
  rw [Text.cut_eq_none_iff.mpr h]
  simp

theorem query_append (h : '?' ∉ path.toList) (query : String) :
    beforeQuery (path ++ "?" ++ query) = path ∧ queryOf (path ++ "?" ++ query) = query := by
  have hcut : cut '?' (path ++ "?" ++ query).toList = some (path.toList, query.toList) :=
    Text.cut_eq_some_iff.mpr ⟨by simp, h⟩
  unfold beforeQuery queryOf
  rw [hcut]
  simp

/-- The first question mark of an address begins its query. -/
theorem exists_query_of_mem (h : '?' ∈ url.toList) :
    ∃ path query, url = path ++ "?" ++ query ∧ '?' ∉ path.toList := by
  cases hcut : cut '?' url.toList with
  | none => exact absurd h (Text.cut_eq_none_iff.mp hcut)
  | some parts =>
    obtain ⟨hurl, hpath⟩ := Text.cut_eq_some_iff.mp hcut
    refine ⟨String.ofList parts.1, String.ofList parts.2, ?_, by simpa using hpath⟩
    rw [← String.toList_inj, hurl]
    simp

theorem queryOf_isInfix (url : String) : (queryOf url).toList <:+: url.toList := by
  by_cases h : '?' ∈ url.toList
  · obtain ⟨path, query, rfl, hpath⟩ := exists_query_of_mem h
    rw [(query_append hpath query).2, String.toList_append]
    exact (List.suffix_append _ _).isInfix
  · rw [(query_of_not_mem h).2]
    exact List.nil_infix

/-- A parameter that is written out has the name and holds the text that is looked for. -/
theorem mode_of_written {value : List Char}
    (h : "mode=".toList ++ value ∈ Text.pieces '&' (queryOf url).toList) :
    NamesMode url ∧ HoldsMode url := by
  constructor
  · have hcut : cut '=' ("mode=".toList ++ value) = some ("mode".toList, value) :=
      Text.cut_eq_some_iff.mpr ⟨rfl, by decide⟩
    have hname : Url.formText (Bytes.utf8 (String.ofList "mode".toList)) = "mode" := by
      decide +kernel
    have hpair : Url.formPair ("mode=".toList ++ value) =
        ("mode", Url.formText (Bytes.utf8 (String.ofList value))) := by
      simp only [Url.formPair, hcut, Option.getD_some, hname]
    refine ⟨_, List.mem_map.mpr ⟨_, List.mem_filter.mpr ⟨h, ?_⟩, hpair⟩⟩
    rfl
  · exact (List.prefix_append _ value).isInfix.trans
      ((Text.infix_of_mem_pieces h).trans (queryOf_isInfix url))

theorem connectUrl_of_holdsMode (h : HoldsMode url) (d : Dialect) : d.connectUrl url = url := by
  unfold Dialect.connectUrl
  rw [if_neg]
  simp [Text.occurs_iff.mpr h]

theorem connectUrl_of_not_holdsMode (h : ¬ HoldsMode url) : Dialect.sqlite.connectUrl url =
    url ++ (if '?' ∈ url.toList then "&" else "?") ++ "mode=rwc" := by
  have hoccurs : Text.occurs Dialect.modeParameter.toList url.toList = false := by
    rw [← Bool.not_eq_true, Text.occurs_iff]
    exact h
  unfold Dialect.connectUrl
  rw [if_pos ⟨rfl, by rw [hoccurs]; rfl⟩, String.append_assoc]
  simp only [List.contains_iff_mem]
  rfl

/-- A completed address holds the text that is looked for. -/
theorem holdsMode_connectUrl (url : String) : HoldsMode (Dialect.sqlite.connectUrl url) := by
  by_cases h : HoldsMode url
  · rw [connectUrl_of_holdsMode h]
    exact h
  · rw [connectUrl_of_not_holdsMode h]
    refine ⟨(url ++ if '?' ∈ url.toList then "&" else "?").toList, "rwc".toList, ?_⟩
    simp [Dialect.modeParameter]

/-- Completing an address once is enough. -/
theorem connectUrl_connectUrl (d : Dialect) (url : String) :
    d.connectUrl (d.connectUrl url) = d.connectUrl url := by
  cases d with
  | sqlite => exact connectUrl_of_holdsMode (holdsMode_connectUrl url) .sqlite
  | mysql => rfl

/-- The parameter that is added goes after the others, and what stands before them stays. -/
theorem query_connectUrl (h : ¬ HoldsMode url) :
    beforeQuery (Dialect.sqlite.connectUrl url) = beforeQuery url ∧
    Url.formPairs (queryOf (Dialect.sqlite.connectUrl url)) =
      Url.formPairs (queryOf url) ++ [("mode", "rwc")] := by
  have hadded : Url.formPairs "mode=rwc" = [("mode", "rwc")] := by decide +kernel
  rw [connectUrl_of_not_holdsMode h, ← hadded]
  by_cases hmem : '?' ∈ url.toList
  · rw [if_pos hmem]
    obtain ⟨path, query, rfl, hpath⟩ := exists_query_of_mem hmem
    obtain ⟨hbefore, hquery⟩ := query_append hpath query
    obtain ⟨hbefore', hquery'⟩ := query_append hpath (query ++ "&" ++ "mode=rwc")
    have hcompleted : path ++ "?" ++ query ++ "&" ++ "mode=rwc" =
        path ++ "?" ++ (query ++ "&" ++ "mode=rwc") := by
      simp only [String.append_assoc]
    rw [hcompleted, hbefore, hquery, hbefore', hquery']
    exact ⟨rfl, Url.formPairs_append query "mode=rwc"⟩
  · obtain ⟨hbefore, hquery⟩ := query_append hmem "mode=rwc"
    obtain ⟨hbefore', hquery'⟩ := query_of_not_mem hmem
    rw [if_neg hmem, hbefore, hquery, hbefore', hquery']
    exact ⟨rfl, rfl⟩

theorem connectUrl_eq_self_iff : Dialect.sqlite.connectUrl url = url ↔ HoldsMode url := by
  constructor
  · intro h
    exact h ▸ holdsMode_connectUrl url
  · intro h
    exact connectUrl_of_holdsMode h .sqlite

/-- **An address is completed once, by one parameter after the others.** It is left as it is just if
it holds the text that begins the parameter: so if a parameter is written out, but also if the text
stands elsewhere. Whether a parameter has the name decides of an address just if it has one exactly
where it holds the text. -/
theorem completed_address (url : String) :
    Dialect.sqlite.connectUrl (Dialect.sqlite.connectUrl url) = Dialect.sqlite.connectUrl url ∧
    (Dialect.sqlite.connectUrl url = url ↔ HoldsMode url) ∧
    (¬ HoldsMode url → beforeQuery (Dialect.sqlite.connectUrl url) = beforeQuery url ∧
      Url.formPairs (queryOf (Dialect.sqlite.connectUrl url)) =
        Url.formPairs (queryOf url) ++ [("mode", "rwc")]) ∧
    (∀ value, "mode=".toList ++ value ∈ Text.pieces '&' (queryOf url).toList →
      NamesMode url ∧ Dialect.sqlite.connectUrl url = url) ∧
    ((NamesMode url ↔ HoldsMode url) ↔
      (NamesMode url → Dialect.sqlite.connectUrl url = url) ∧
      (¬ NamesMode url → Url.formPairs (queryOf (Dialect.sqlite.connectUrl url)) =
        Url.formPairs (queryOf url) ++ [("mode", "rwc")])) := by
  refine ⟨connectUrl_connectUrl .sqlite url, connectUrl_eq_self_iff, query_connectUrl,
    fun value h => ?_, ?_⟩
  · obtain ⟨hnames, hholds⟩ := mode_of_written h
    exact ⟨hnames, connectUrl_of_holdsMode hholds .sqlite⟩
  · rw [connectUrl_eq_self_iff]
    constructor
    · intro h
      exact ⟨h.mp, fun hnone => (query_connectUrl fun hholds => hnone (h.mpr hholds)).2⟩
    · rintro ⟨hnamed, hnone⟩
      refine ⟨hnamed, fun hholds => ?_⟩
      -- An address that is left as it is has no parameter more.
      by_contra hnot
      have hlength := congrArg List.length (hnone hnot)
      rw [connectUrl_of_holdsMode hholds, List.length_append] at hlength
      simp at hlength

end

/-- Text in the path counts as the parameter, and a parameter with an escape in its name does not
count. -/
theorem mode_missed :
    (Url.formPairs (queryOf "sqlite:///data/mode=prod/lfs.db") = [] ∧
      Dialect.sqlite.connectUrl "sqlite:///data/mode=prod/lfs.db" =
        "sqlite:///data/mode=prod/lfs.db") ∧
    Url.formPairs (queryOf "sqlite://lfs.db?m%6Fde=ro") = [("mode", "ro")] ∧
      Dialect.sqlite.connectUrl "sqlite://lfs.db?m%6Fde=ro" =
        "sqlite://lfs.db?m%6Fde=ro&mode=rwc" := by
  decide +kernel

end Depot.Relational
