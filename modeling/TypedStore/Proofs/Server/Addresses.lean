/-
The parts of an address and its text. What is read as a part holds no character that would end it: a host
none of the delimiters around it (`not_mem_host`), a user and a password none at all, a path no question
mark. So the text of an address that was read can be cut again where it was put together, and its query is
found in it (`queryOf_text`).
-/
import Mathlib.Data.List.TakeWhile
import TypedStore.Proofs.Expansion.Minting
import TypedStore.Proofs.Text.Percent
import TypedStore.Server.Url

set_option autoImplicit false

namespace TypedStore.Server

open TypedStore.Text

/-! ## 1. Hosts -/

/-- The characters of numeric hosts. -/
def isNumericHostChar (c : Char) : Bool := c == ':' || c == '.' || (hexValue? c).isSome

theorem isSome_hexValue?_of_isDigit {c : Char} (digit : c.isDigit = true) :
    (hexValue? c).isSome = true := by
  have within : '0' ≤ c ∧ c ≤ '9' := by simpa [Char.isDigit, Char.le_def] using digit
  rw [hexValue?, if_pos within]
  rfl

theorem isNumericHostChar_of_isOctet {cs : List Char} (octet : isOctet cs = true) :
    ∀ c ∈ cs, isNumericHostChar c = true := by
  intro c mem
  rw [isOctet, digitsValue?] at octet
  split at octet
  · rename_i n value
    split at value
    · cases value
    · rename_i digits
      have digit : c.isDigit = true := by
        simp only [Bool.or_eq_true, not_or, Bool.not_eq_true, Bool.not_eq_false',
          List.all_eq_true] at digits
        exact digits.2 c mem
      simp [isNumericHostChar, isSome_hexValue?_of_isDigit digit]
  · cases octet

theorem isNumericHostChar_of_groupsOf? {last : Bool} {piece : List Char} {n : Nat}
    (h : groupsOf? last piece = some n) : ∀ c ∈ piece, isNumericHostChar c = true := by
  intro c mem
  rw [groupsOf?] at h
  split at h
  · rename_i digits
    simp [isNumericHostChar, List.all_eq_true.1 digits.2.2 c mem]
  · split at h
    · rename_i octets
      rw [Bool.and_eq_true, List.all_eq_true] at octets
      rcases exists_piece_of_mem '.' mem with rfl | ⟨octet, there, here⟩
      · rfl
      · exact isNumericHostChar_of_isOctet (octets.2 octet there) c here
    · cases h

theorem isNumericHostChar_of_groupCount? {last : Bool} {list : List (List Char)} {n : Nat}
    (h : groupCount? last list = some n) :
    ∀ piece ∈ list, ∀ c ∈ piece, isNumericHostChar c = true := by
  fun_induction groupCount? last list generalizing n with
  | case1 => nofun
  | case2 piece =>
    intro other mem
    rw [List.mem_singleton.1 mem]
    exact isNumericHostChar_of_groupsOf? h
  | case3 piece rest _ ih =>
    obtain ⟨first, one, h⟩ := Option.bind_eq_some_iff.1 h
    obtain ⟨others, behind, -⟩ := Option.bind_eq_some_iff.1 h
    intro other mem
    rcases List.mem_cons.1 mem with rfl | mem
    · exact isNumericHostChar_of_groupsOf? one
    · exact ih behind other mem

theorem append_of_cutAtGap? {cs before behind : List Char} (h : cutAtGap? cs = some (before, behind)) :
    cs = before ++ ':' :: ':' :: behind := by
  fun_induction cutAtGap? cs generalizing before with
  | case1 rest =>
    cases h
    rfl
  | case2 c rest _ ih =>
    obtain ⟨⟨first, last⟩, cut, same⟩ := Option.map_eq_some_iff.1 h
    cases same
    rw [ih cut, List.cons_append]
  | case3 => cases h

theorem isNumericHostChar_of_colonPieces {cs : List Char}
    (each : ∀ piece ∈ colonPieces cs, ∀ c ∈ piece, isNumericHostChar c = true) :
    ∀ c ∈ cs, isNumericHostChar c = true := by
  intro c mem
  rw [colonPieces, if_neg (by cases mem <;> simp)] at each
  rcases exists_piece_of_mem ':' mem with rfl | ⟨piece, there, here⟩
  · rfl
  · exact each piece there c here

theorem isNumericHostChar_of_isNumericHost {cs : List Char} (numeric : isNumericHost cs = true) :
    ∀ c ∈ cs, isNumericHostChar c = true := by
  rw [isNumericHost] at numeric
  split at numeric
  · intro c mem
    rcases exists_piece_of_mem ':' mem with rfl | ⟨piece, there, here⟩
    · rfl
    · exact isNumericHostChar_of_groupCount? (eq_of_beq numeric) piece there c here
  · rename_i before behind gap
    split at numeric
    · rename_i m n front back
      rw [append_of_cutAtGap? gap]
      intro c mem
      rcases List.mem_append.1 mem with mem | mem
      · exact isNumericHostChar_of_colonPieces (isNumericHostChar_of_groupCount? front) c mem
      · rcases List.mem_cons.1 mem with rfl | mem
        · rfl
        · rcases List.mem_cons.1 mem with rfl | mem
          · rfl
          · exact isNumericHostChar_of_colonPieces (isNumericHostChar_of_groupCount? back) c mem
    · cases numeric

/-- A host is a numeric one between brackets, or a name, which is written with codes. -/
theorem readHost?_cases {cs : List Char} {host : String} (h : readHost? cs = some host) :
    (∃ inner, cs = '[' :: (inner ++ [']']) ∧ (∀ c ∈ inner, isNumericHostChar c = true)
        ∧ host.toList = cs)
      ∨ ((∀ c ∈ cs, c ∉ barredFromHost) ∧ host.toList = percentEncode isPlain cs) := by
  unfold readHost? at h
  split at h
  · rename_i inner
    split at h
    · rename_i closed
      rw [Bool.and_eq_true] at closed
      cases h
      obtain ⟨digits, rfl⟩ := List.getLast?_eq_some_iff.1 (eq_of_beq closed.1)
      have numeric := isNumericHostChar_of_isNumericHost closed.2
      rw [List.dropLast_concat] at numeric
      exact .inl ⟨digits, rfl, numeric, String.toList_ofList⟩
    · cases h
  · split at h
    · cases h
    · rename_i free
      cases h
      refine .inr ⟨fun c mem barred => free ?_, String.toList_ofList⟩
      exact List.any_eq_true.2 ⟨c, mem, List.contains_iff_mem.2 barred⟩

/-- Delimiters around a host, and characters that are dropped from an address. -/
def hostDelimiters : List Char := ['\t', '\n', '\r', '#', '/', '?', '@']

/-- No host holds a delimiter, neither as it is read nor as it is written. -/
theorem not_mem_host {cs : List Char} {host : String} (h : readHost? cs = some host) {c : Char}
    (delimiter : c ∈ hostDelimiters) : c ∉ cs ∧ c ∉ host.toList := by
  have apart : ∀ c ∈ hostDelimiters, isNumericHostChar c = false ∧ c ∈ barredFromHost ∧ c ≠ '[' ∧ c ≠ ']'
      ∧ c ∉ codeChars := forall_of_all (by decide)
  obtain ⟨other, barred, opening, closing, code⟩ := apart c delimiter
  obtain ⟨inner, rfl, numeric, same⟩ | ⟨free, same⟩ := readHost?_cases h
  · have outside : c ∉ '[' :: (inner ++ [']']) := by
      intro mem
      rcases List.mem_cons.1 mem with rfl | mem
      · exact opening rfl
      · rcases List.mem_append.1 mem with mem | mem
        · rw [numeric c mem] at other
          cases other
        · exact closing (List.mem_singleton.1 mem)
    exact ⟨outside, same ▸ outside⟩
  · refine ⟨fun mem => free c mem barred, fun mem => ?_⟩
    rcases mem_percentEncode (same ▸ mem) with ⟨-, mem⟩ | digit
    · exact free c mem barred
    · exact code digit

theorem cutHost_bracketed {inner : List Char} (numeric : ∀ c ∈ inner, isNumericHostChar c = true) :
    cutHost true (inner ++ [']']) = (inner ++ [']'], []) := by
  induction inner with
  | nil => rfl
  | cons c rest ih =>
    have opening : c ≠ '[' := by
      rintro rfl
      exact absurd (numeric _ List.mem_cons_self) (by decide)
    have closing : c ≠ ']' := by
      rintro rfl
      exact absurd (numeric _ List.mem_cons_self) (by decide)
    rw [List.cons_append, cutHost, if_neg (by simp), if_neg opening, if_neg closing,
      ih fun d mem => numeric d (List.mem_cons_of_mem _ mem)]

theorem cutHost_of_free {cs : List Char} (free : ∀ c ∈ cs, c ∉ barredFromHost) :
    cutHost false cs = (cs, []) := by
  induction cs with
  | nil => rfl
  | cons c rest ih =>
    have first := free c List.mem_cons_self
    have apart : ':' ∈ barredFromHost ∧ '[' ∈ barredFromHost ∧ ']' ∈ barredFromHost := by decide
    have colon : c ≠ ':' := fun same => first (same ▸ apart.1)
    have opening : c ≠ '[' := fun same => first (same ▸ apart.2.1)
    have closing : c ≠ ']' := fun same => first (same ▸ apart.2.2)
    rw [cutHost, if_neg fun h => colon h.1, if_neg opening, if_neg closing,
      ih fun d mem => free d (List.mem_cons_of_mem _ mem)]

/-- A host is not cut: the colons of a numeric one are between brackets. -/
theorem cutHost_of_readHost? {cs : List Char} {host : String} (h : readHost? cs = some host) :
    cutHost false cs = (cs, []) := by
  obtain ⟨inner, rfl, numeric, -⟩ | ⟨free, -⟩ := readHost?_cases h
  · rw [cutHost, if_neg (by decide), if_pos rfl, cutHost_bracketed numeric]
  · exact cutHost_of_free free

/-! ## 2. Credentials -/

theorem keepsCodes_keptInCredentials : KeepsCodes keptInCredentials :=
  keepsCodes_of_codeDigits (forall_of_all (by decide))

/-- A user and a password as written hold nothing that would end them. -/
theorem not_mem_written {cs : List Char} {c : Char} (delimiter : c ∈ ['@', ':', '/', '?', '#']) :
    c ∉ percentEncode keptInCredentials cs := by
  have apart : ∀ c ∈ ['@', ':', '/', '?', '#'], keptInCredentials c = false ∧ c ∉ codeChars :=
    forall_of_all (by decide)
  intro mem
  rcases mem_percentEncode mem with ⟨kept, -⟩ | digit
  · rw [(apart c delimiter).1] at kept
    cases kept
  · exact (apart c delimiter).2 digit

/-- The user and the password are what stands around the first colon, written with codes. -/
theorem readCredentials_cases (cs : List Char) :
    (':' ∉ cs ∧ readCredentials cs = (String.ofList (percentEncode keptInCredentials cs), none))
      ∨ ∃ user password, cs = user ++ ':' :: password ∧ ':' ∉ user
        ∧ (readCredentials cs).1 = String.ofList (percentEncode keptInCredentials user)
        ∧ (readCredentials cs).2
          = if password.isEmpty then none
            else some (String.ofList (percentEncode keptInCredentials password)) := by
  by_cases colon : ':' ∈ cs
  · obtain ⟨user, password, rfl, free⟩ := List.eq_append_cons_of_mem colon
    have cut := cutAt?_append free password
    exact .inr ⟨user, password, rfl, free, by simp only [readCredentials, cut],
      by simp only [readCredentials, cut]⟩
  · exact .inl ⟨colon, by simp only [readCredentials, cutAt?_eq_none colon]⟩

theorem not_mem_readCredentials (cs : List Char) {c : Char} (delimiter : c ∈ ['@', ':', '/', '?', '#']) :
    c ∉ (readCredentials cs).1.toList ∧ ∀ p, (readCredentials cs).2 = some p → c ∉ p.toList := by
  obtain ⟨-, read⟩ | ⟨user, password, -, -, first, second⟩ := readCredentials_cases cs
  · rw [read]
    exact ⟨by rw [String.toList_ofList]; exact not_mem_written delimiter, nofun⟩
  · refine ⟨by rw [first, String.toList_ofList]; exact not_mem_written delimiter, fun p some => ?_⟩
    rw [second] at some
    split at some
    · cases some
    · cases some
      rw [String.toList_ofList]
      exact not_mem_written delimiter

/-! ## 3. Authorities -/

/-- What stands in front of the last `@`, nothing where there is none. -/
def credentialsOf (cs : List Char) : List Char := ((cutAtLast? '@' cs).map (·.1)).getD []

theorem cutAtLast?_append {separator : Char} {behind : List Char} (free : separator ∉ behind)
    (before : List Char) :
    cutAtLast? separator (before ++ separator :: behind) = some (before, behind) := by
  have reversed : (before ++ separator :: behind).reverse
      = behind.reverse ++ separator :: before.reverse := by simp
  have free' : separator ∉ behind.reverse := by rwa [List.mem_reverse]
  rw [cutAtLast?, reversed, cutAt?_append free']
  simp only [Option.map_some, List.reverse_reverse]

theorem cutAtLast?_cases (separator : Char) (cs : List Char) :
    cutAtLast? separator cs = none
      ∨ ∃ before behind, cutAtLast? separator cs = some (before, behind)
        ∧ cs = before ++ separator :: behind := by
  cases cut : cutAt? separator cs.reverse with
  | none => exact .inl (by rw [cutAtLast?, cut, Option.map_none])
  | some parts =>
    obtain ⟨behind, before⟩ := parts
    refine .inr ⟨before.reverse, behind.reverse, by rw [cutAtLast?, cut, Option.map_some], ?_⟩
    have whole := append_of_cutAt? cut
    rw [← List.reverse_inj, whole]
    simp

theorem readAuthority?_eq_some {cs : List Char} {ends : Bool} {a : Authority}
    (h : readAuthority? cs ends = some a) :
    (a.user, a.password?) = readCredentials (credentialsOf cs)
      ∧ ∃ hostText, readHost? hostText = some a.host := by
  rcases cutAtLast?_cases '@' cs with cut | ⟨before, behind, cut, -⟩
  all_goals
    simp only [readAuthority?, cut] at h
    obtain ⟨host, read, h⟩ := Option.bind_eq_some_iff.1 h
    obtain ⟨port, -, h⟩ := Option.bind_eq_some_iff.1 h
    split at h
    · cases h
    · cases h
      exact ⟨by rw [credentialsOf, cut]; rfl, _, read⟩

/-! ## 4. Paths -/

theorem mem_resolveDots {done segments : List (List Char)} {segment : List Char}
    (h : segment ∈ resolveDots done segments) : segment ∈ done ∨ segment ∈ segments ∨ segment = [] := by
  have trails : ∀ {rest : List (List Char)},
      segment ∈ (if rest.isEmpty then [[]] else []) → segment = [] := by
    intro rest mem
    split at mem
    · exact List.mem_singleton.1 mem
    · cases mem
  induction segments generalizing done with
  | nil => exact .inl h
  | cons first rest ih =>
    rw [resolveDots] at h
    split at h
    · rcases ih h with mem | mem | empty
      · rcases List.mem_append.1 mem with mem | mem
        · exact .inl mem
        · exact .inr (.inr (trails mem))
      · exact .inr (.inl (List.mem_cons_of_mem _ mem))
      · exact .inr (.inr empty)
    · rcases ih h with mem | mem | empty
      · rcases List.mem_append.1 mem with mem | mem
        · exact .inl (List.dropLast_subset _ mem)
        · exact .inr (.inr (trails mem))
      · exact .inr (.inl (List.mem_cons_of_mem _ mem))
      · exact .inr (.inr empty)
    · rcases ih h with mem | mem | empty
      · rcases List.mem_append.1 mem with mem | mem
        · exact .inl mem
        · exact .inr (.inl (List.mem_singleton.1 mem ▸ List.mem_cons_self))
      · exact .inr (.inl (List.mem_cons_of_mem _ mem))
      · exact .inr (.inr empty)

/-- A path as written holds neither of the characters that end one. -/
theorem not_mem_readPath {cs : List Char} {c : Char} (delimiter : c ∈ ['?', '#']) :
    c ∉ (readPath cs).toList := by
  have apart : ∀ c ∈ ['?', '#'], keptInPath c = false ∧ c ∉ codeChars ∧ c ≠ '/' :=
    forall_of_all (by decide)
  obtain ⟨other, code, slash⟩ := apart c delimiter
  intro mem
  cases cs with
  | nil => simp [readPath] at mem
  | cons first rest =>
    rw [readPath, String.toList_ofList] at mem
    obtain ⟨segment, there, mem⟩ := List.mem_flatMap.1 mem
    have here : c ∈ segment := (List.mem_cons.1 mem).resolve_left slash
    rcases mem_resolveDots there with none | piece | rfl
    · cases none
    · rcases mem_percentEncode (mem_of_mem_pieces piece here) with ⟨kept, -⟩ | digit
      · rw [other] at kept
        cases kept
      · exact code digit
    · cases here

/-! ## 5. Texts -/

/-- What stands in front of the query and the fragment. -/
def ConnectionUrl.front (u : ConnectionUrl) : String :=
  u.scheme ++ schemeMark ++ u.credentials ++ u.host
    ++ (u.port?.map fun p => ":" ++ natText p).getD "" ++ u.path

/-- What stands in front of the query and the fragment of a text behind its scheme. -/
def bodyOf (cs : List Char) : List Char := (cutOff '?' (cutOff '#' cs).1).1

/-- Whether an address ends with its authority. -/
def endsWithAuthority (cs : List Char) : Bool :=
  ((bodyOf cs).dropWhile (· != '/')).isEmpty && (cutOff '?' (cutOff '#' cs).1).2.isNone
    && (cutOff '#' cs).2.isNone

/-- The address of an authority and of the text around it. -/
def Authority.address (a : Authority) (scheme : String) (cs : List Char) : ConnectionUrl :=
  ⟨scheme, a.user, a.password?, a.host, a.port?,
    readPath (a.pathStart ++ (bodyOf cs).dropWhile (· != '/')),
    (cutOff '?' (cutOff '#' cs).1).2.map fun q => String.ofList (percentEncode keptInQuery q),
    (cutOff '#' cs).2.map fun f => String.ofList (percentEncode keptInFragment f)⟩

/-- What the authority of an address is read from: the text up to a slash, a question mark or a number
sign. -/
def authorityOf (cs : List Char) : List Char := cs.takeWhile fun c => c != '#' && c != '?' && c != '/'

theorem cutOff_of_not_mem {separator : Char} {cs : List Char} (free : separator ∉ cs) :
    cutOff separator cs = (cs, none) := by
  simp only [cutOff, cutAt?_eq_none free]

theorem cutOff_append {separator : Char} {before : List Char} (free : separator ∉ before)
    (behind : List Char) : cutOff separator (before ++ separator :: behind) = (before, some behind) := by
  simp only [cutOff, cutAt?_append free]

theorem fst_cutOff (separator : Char) (cs : List Char) :
    (cutOff separator cs).1 = cs.takeWhile (· != separator) := by
  have outside : ∀ {part : List Char}, separator ∉ part → ∀ c ∈ part, (c != separator) = true :=
    fun free c mem => bne_iff_ne.2 fun same => free (same ▸ mem)
  by_cases mem : separator ∈ cs
  · obtain ⟨before, behind, rfl, free⟩ := List.eq_append_cons_of_mem mem
    rw [cutOff_append free, List.takeWhile_append_of_pos (outside free),
      List.takeWhile_cons_of_neg (by simp), List.append_nil]
  · rw [cutOff_of_not_mem mem]
    exact (List.takeWhile_eq_self_iff.2 (outside mem)).symm

theorem takeWhile_bodyOf (cs : List Char) : (bodyOf cs).takeWhile (· != '/') = authorityOf cs := by
  rw [bodyOf, fst_cutOff, fst_cutOff, List.takeWhile_takeWhile, List.takeWhile_takeWhile, authorityOf]
  congr 1
  funext c
  simp only [Bool.decide_and, Bool.decide_eq_true]
  cases c != '#' <;> cases c != '?' <;> cases c != '/' <;> rfl

/-- How an address is read. -/
theorem ofText?_eq (s : String) :
    ConnectionUrl.ofText? s = (cutScheme? (significant s.toList)).bind fun cut =>
      (readAuthority? (authorityOf cut.2) (endsWithAuthority cut.2)).bind fun a =>
        some (a.address cut.1 cut.2) := by
  simp only [← takeWhile_bodyOf]
  rfl

theorem ofText?_eq_some {s : String} {u : ConnectionUrl} (h : ConnectionUrl.ofText? s = some u) :
    ∃ scheme rest a, cutScheme? (significant s.toList) = some (scheme, rest)
      ∧ readAuthority? (authorityOf rest) (endsWithAuthority rest) = some a
      ∧ u = a.address scheme rest := by
  rw [ofText?_eq] at h
  obtain ⟨⟨scheme, rest⟩, cut, h⟩ := Option.bind_eq_some_iff.1 h
  obtain ⟨a, read, h⟩ := Option.bind_eq_some_iff.1 h
  cases h
  exact ⟨scheme, rest, a, cut, read, rfl⟩

theorem mem_schemes_of_cutScheme? {cs rest : List Char} {scheme : String}
    (h : cutScheme? cs = some (scheme, rest)) : scheme ∈ schemes := by
  obtain ⟨own, mem, h⟩ := List.exists_of_findSome?_eq_some h
  dsimp only at h
  split at h
  · cases h
    exact mem
  · cases h

theorem not_mem_credentials {u : ConnectionUrl} {c : Char} (user : c ∉ u.user.toList)
    (password : ∀ p, u.password? = some p → c ∉ p.toList) (mark : c ≠ ':' ∧ c ≠ '@') :
    c ∉ u.credentials.toList := by
  simp only [ConnectionUrl.credentials]
  split
  · simp
  · cases secret : u.password? with
    | none => simp [String.toList_append, user, mark]
    | some p => simp [String.toList_append, user, mark, password p secret]

/-- What stands in front of the query holds neither of the characters that end it. -/
theorem not_mem_front {s : String} {u : ConnectionUrl} (h : ConnectionUrl.ofText? s = some u) {c : Char}
    (delimiter : c ∈ ['?', '#']) : c ∉ u.front.toList := by
  have apart : ∀ c ∈ ['?', '#'], c ∈ ['@', ':', '/', '?', '#'] ∧ c ∈ hostDelimiters ∧ (c ≠ ':' ∧ c ≠ '@')
      ∧ isWordChar c = false ∧ ∀ scheme ∈ schemes, c ∉ (scheme ++ schemeMark).toList :=
    forall_of_all (by decide)
  obtain ⟨ending, around, marks, digit, scheme⟩ := apart c delimiter
  obtain ⟨own, rest, a, cut, read, rfl⟩ := ofText?_eq_some h
  obtain ⟨credentials, hostText, host⟩ := readAuthority?_eq_some read
  obtain ⟨user, password⟩ := not_mem_readCredentials (credentialsOf (authorityOf rest)) ending
  rw [← credentials] at user password
  have port : ∀ n : Nat, c ∉ (natText n).toList := fun n mem => by
    rw [wordChars_natText n c mem] at digit
    cases digit
  have portText : c ∉ ((a.port?.map fun p => ":" ++ natText p).getD "").toList := by
    cases a.port? with
    | none => simp
    | some n => simp [String.toList_append, marks.1, port n]
  simp only [ConnectionUrl.front, String.toList_append, List.mem_append, not_or]
  have named := scheme own (mem_schemes_of_cutScheme? cut)
  rw [String.toList_append, List.mem_append, not_or] at named
  exact ⟨⟨⟨⟨named, not_mem_credentials user password marks⟩, (not_mem_host host around).2⟩, portText⟩,
    not_mem_readPath delimiter⟩

/-- The query of an address: the text between the first question mark and the first number sign. -/
def queryOf (address : String) : String :=
  String.ofList ((cutOff '?' (cutOff '#' address.toList).1).2.getD [])

/-- **The query is found in the text** where it was put in, whatever the fragment holds. -/
theorem queryOf_text {u : ConnectionUrl} (front : ∀ c ∈ ['?', '#'], c ∉ u.front.toList)
    (query : ∀ q, u.query? = some q → '#' ∉ q.toList) : queryOf u.text = u.query?.getD "" := by
  have mark : '?' ∉ u.front.toList := front _ (by decide)
  have sign : '#' ∉ u.front.toList := front _ (by decide)
  have parts : u.text.toList = (u.front.toList ++ ((u.query?.map fun q => "?" ++ q).getD "").toList)
      ++ ((u.fragment?.map fun f => "#" ++ f).getD "").toList := by
    rw [← String.toList_append, ← String.toList_append]
    rfl
  have inFront : '#' ∉ u.front.toList ++ ((u.query?.map fun q => "?" ++ q).getD "").toList := by
    cases own : u.query? with
    | none => simpa using sign
    | some q => simpa [String.toList_append, sign] using query q own
  have before : (cutOff '#' u.text.toList).1
      = u.front.toList ++ ((u.query?.map fun q => "?" ++ q).getD "").toList := by
    rw [parts]
    cases u.fragment? with
    | none => rw [Option.map_none, Option.getD_none, String.toList_empty, List.append_nil,
        cutOff_of_not_mem inFront]
    | some f =>
      have written : ((some f).map fun f => "#" ++ f).getD "" = "#" ++ f := rfl
      rw [written, String.toList_append]
      exact congrArg Prod.fst (cutOff_append inFront f.toList)
  rw [queryOf, before]
  cases u.query? with
  | none =>
    rw [Option.map_none, Option.getD_none, String.toList_empty, List.append_nil, cutOff_of_not_mem mark]
    rfl
  | some q =>
    have written : ((some q).map fun q => "?" ++ q).getD "" = "?" ++ q := rfl
    have cut := cutOff_append mark q.toList
    rw [written, String.toList_append]
    exact (congrArg (fun parts => String.ofList (parts.2.getD [])) cut).trans (String.ofList_toList)

end TypedStore.Server
