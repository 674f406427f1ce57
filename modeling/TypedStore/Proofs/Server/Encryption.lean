/-
Settings of encryption and the client. They are taken out of an address name by name, the first pair of
each, so the client gets all other pairs as they were (`passedPairs_eq`) and no setting of encryption just
where none is given twice and none but the mode is given for a connection that is not encrypted
(`settings_withheld_iff`).
-/
import TypedStore.Proofs.Server.Addresses
import TypedStore.Server.Login

set_option autoImplicit false

namespace TypedStore.Server

open TypedStore.Text

/-! ## 1. Pairs of a query -/

/-- The names of the settings of encryption. -/
def encryptionNames : List String := ["sslmode", "sslrootcert", "sslcert", "sslkey"]

/-- The pairs of a name. -/
def pairsOf (name : String) (pairs : List (String × String)) : List (String × String) :=
  pairs.filter fun pair => pair.1 == name

/-- The pairs that are no settings of encryption. -/
def otherPairs (pairs : List (String × String)) : List (String × String) :=
  pairs.filter fun pair => !encryptionNames.contains pair.1

/-- The pairs without the first one of each of some names. -/
def withoutFirst (names : List String) (pairs : List (String × String)) : List (String × String) :=
  names.foldl (fun left name => left.eraseP fun pair => pair.1 == name) pairs

/-- Leaving one pair out is not seen among pairs that it does not belong to. -/
theorem filter_eraseP_of_apart {keep gone : String × String → Bool}
    (apart : ∀ pair, gone pair = true → keep pair = false) (pairs : List (String × String)) :
    (pairs.eraseP gone).filter keep = pairs.filter keep := by
  induction pairs with
  | nil => rfl
  | cons pair rest ih =>
    cases first : gone pair with
    | true => rw [List.eraseP_cons_of_pos first, List.filter_cons_of_neg (by simp [apart pair first])]
    | false =>
      rw [List.eraseP_cons_of_neg (by simp [first]), List.filter_cons, List.filter_cons, ih]

/-- Of the pairs of a name the first is left out. -/
theorem filter_eraseP_self (gone : String × String → Bool) (pairs : List (String × String)) :
    (pairs.eraseP gone).filter gone = (pairs.filter gone).tail := by
  induction pairs with
  | nil => rfl
  | cons pair rest ih =>
    cases first : gone pair with
    | true => rw [List.eraseP_cons_of_pos first, List.filter_cons_of_pos first, List.tail_cons]
    | false =>
      rw [List.eraseP_cons_of_neg (by simp [first]), List.filter_cons_of_neg (by simp [first]),
        List.filter_cons_of_neg (by simp [first]), ih]

theorem otherPairs_withoutFirst {names : List String} (own : ∀ name ∈ names, name ∈ encryptionNames)
    (pairs : List (String × String)) : otherPairs (withoutFirst names pairs) = otherPairs pairs := by
  induction names generalizing pairs with
  | nil => rfl
  | cons name rest ih =>
    rw [withoutFirst, List.foldl_cons]
    refine (ih (fun other mem => own other (List.mem_cons_of_mem _ mem)) _).trans
      (filter_eraseP_of_apart (fun pair same => ?_) pairs)
    rw [eq_of_beq same, List.contains_iff_mem.2 (own name List.mem_cons_self)]
    rfl

/-- What is left of the pairs of a name. -/
theorem pairsOf_withoutFirst {names : List String} (distinct : names.Nodup) (name : String)
    (pairs : List (String × String)) :
    pairsOf name (withoutFirst names pairs)
      = if name ∈ names then (pairsOf name pairs).tail else pairsOf name pairs := by
  induction names generalizing pairs with
  | nil => rfl
  | cons first rest ih =>
    obtain ⟨apart, distinct⟩ := List.nodup_cons.1 distinct
    rw [withoutFirst, List.foldl_cons]
    refine (ih distinct _).trans ?_
    by_cases same : name = first
    · subst same
      rw [if_neg apart, if_pos List.mem_cons_self]
      exact filter_eraseP_self _ pairs
    · have others : pairsOf name (pairs.eraseP fun pair => pair.1 == first) = pairsOf name pairs :=
        filter_eraseP_of_apart (fun pair here => by
          rw [eq_of_beq here]
          exact beq_false_of_ne (Ne.symm same)) pairs
      simp only [others, List.mem_cons, same, false_or]

theorem eq_otherPairs_iff (pairs : List (String × String)) :
    pairs = otherPairs pairs ↔ ∀ name ∈ encryptionNames, pairsOf name pairs = [] := by
  rw [otherPairs, eq_comm, List.filter_eq_self]
  constructor
  · intro others name setting
    refine List.filter_eq_nil_iff.2 fun pair mem same => ?_
    have other := others pair mem
    rw [eq_of_beq same, List.contains_iff_mem.2 setting] at other
    cases other
  · intro none pair mem
    rw [Bool.not_eq_true', ← Bool.not_eq_true, List.contains_iff_mem]
    intro setting
    have gone := List.filter_eq_nil_iff.1 (none pair.1 setting) pair mem
    exact gone (beq_self_eq_true _)

/-! ## 2. Taking settings out -/

theorem pairs_withPairs (u : ConnectionUrl) (pairs : List (String × String)) :
    (u.withPairs pairs).pairs = pairs := by
  cases pairs with
  | nil => rfl
  | cons pair rest => exact formPairs_formText (pair :: rest)

theorem snd_takeSetting (u : ConnectionUrl) (name : String) (default? : Option String) :
    (takeSetting u name default?).2 = u.withPairs (withoutFirst [name] u.pairs) := rfl

theorem takeSetting_withPairs (u : ConnectionUrl) (pairs : List (String × String)) (name : String)
    (default? : Option String) :
    (takeSetting (u.withPairs pairs) name default?).2 = u.withPairs (withoutFirst [name] pairs) := by
  rw [snd_takeSetting, pairs_withPairs]
  rfl

/-- The settings that are taken out: the mode, and those of key files where the mode encrypts. -/
def takenNames (mode : String) : List String :=
  if mode = unencryptedMode then ["sslmode"] else encryptionNames

/-- The client gets the address with the pairs that are left. -/
theorem url_secured (d : EncryptionDefaults) (u : ConnectionUrl) :
    (u.secured d).url = u.withPairs (withoutFirst (takenNames (u.secured d).mode) u.pairs) := by
  by_cases plain : ((takeSetting u "sslmode" d.mode?).1.getD unencryptedMode) = unencryptedMode
  · have secured : u.secured d = ⟨unencryptedMode, [], (takeSetting u "sslmode" d.mode?).2⟩ := by
      simp only [ConnectionUrl.secured, plain, if_true]
    rw [secured, takenNames, if_pos rfl]
    rfl
  · have mode : (u.secured d).mode = (takeSetting u "sslmode" d.mode?).1.getD unencryptedMode := by
      simp only [ConnectionUrl.secured, if_neg plain]
    rw [mode, takenNames, if_neg plain]
    simp only [ConnectionUrl.secured, if_neg plain, snd_takeSetting u, takeSetting_withPairs]
    rfl

theorem nodup_takenNames (mode : String) : (takenNames mode).Nodup := by
  rw [takenNames]
  split <;> decide

theorem mem_encryptionNames {mode name : String} (h : name ∈ takenNames mode) :
    name ∈ encryptionNames := by
  rw [takenNames] at h
  split at h
  · exact List.mem_singleton.1 h ▸ List.mem_cons_self
  · exact h

/-! ## 3. What the client gets -/

/-- The pairs of the text that goes to the client. -/
def passedPairs (d : EncryptionDefaults) (u : ConnectionUrl) : List (String × String) :=
  formPairs (queryOf (u.secured d).url.text)

theorem queryOf_withPairs {text : String} {u : ConnectionUrl} (read : ConnectionUrl.ofText? text = some u)
    (pairs : List (String × String)) :
    queryOf (u.withPairs pairs).text = (u.withPairs pairs).query?.getD "" := by
  have front : ∀ c ∈ ['?', '#'], c ∉ (u.withPairs pairs).front.toList := fun c delimiter =>
    not_mem_front read delimiter
  refine queryOf_text front fun q own => ?_
  simp only [ConnectionUrl.withPairs] at own
  split at own
  · cases own
  · cases own
    exact not_mem_formText pairs

/-- The client gets the pairs of the address without those that were taken out. -/
theorem passedPairs_eq {text : String} {u : ConnectionUrl} (read : ConnectionUrl.ofText? text = some u)
    (d : EncryptionDefaults) :
    passedPairs d u = withoutFirst (takenNames (u.secured d).mode) u.pairs := by
  rw [passedPairs, url_secured, queryOf_withPairs read]
  exact pairs_withPairs u _

/-- **Settings of encryption are withheld.** All pairs that are none reach the client as they were and in
their order. Of the others none does, just where no name is given more often than it is taken out: once
each where the mode encrypts, and where it does not the mode once and key files not at all. -/
theorem settings_withheld_iff {text : String} {u : ConnectionUrl}
    (read : ConnectionUrl.ofText? text = some u) (d : EncryptionDefaults) :
    otherPairs (passedPairs d u) = otherPairs u.pairs
      ∧ (passedPairs d u = otherPairs u.pairs ↔ ∀ name ∈ encryptionNames,
          (pairsOf name u.pairs).length ≤ if name ∈ takenNames (u.secured d).mode then 1 else 0) := by
  have own : ∀ name ∈ takenNames (u.secured d).mode, name ∈ encryptionNames := fun _ => mem_encryptionNames
  have others := otherPairs_withoutFirst own u.pairs
  rw [passedPairs_eq read]
  refine ⟨others, ?_⟩
  rw [← others, eq_otherPairs_iff]
  refine forall₂_congr fun name _ => ?_
  rw [pairsOf_withoutFirst (nodup_takenNames _)]
  split
  · rw [← List.length_eq_zero_iff, List.length_tail]
    omega
  · rw [← List.length_eq_zero_iff, Nat.le_zero]

/-- An encrypted connection with a key file, settings of others around it and a fragment. -/
def keyedUrl : ConnectionUrl :=
  ⟨"postgres", "", none, "db", none, "/library",
    some "options=-c+a%3Db&sslkey=/k.pem&sslmode=verify-ca&user=reader", some "top"⟩

theorem settings_withheld_iff_keyed :
    ConnectionUrl.ofText?
        "postgres://db/library?options=-c+a%3Db&sslkey=/k.pem&sslmode=verify-ca&user=reader#top"
      = some keyedUrl
    ∧ passedPairs ⟨none, some "/ca.pem", none, none⟩ keyedUrl
      = [("options", "-c a=b"), ("user", "reader")] := by
  have read : ConnectionUrl.ofText?
        "postgres://db/library?options=-c+a%3Db&sslkey=/k.pem&sslmode=verify-ca&user=reader#top"
      = some keyedUrl := by
    decide +kernel
  refine ⟨read, ?_⟩
  rw [(settings_withheld_iff read ⟨none, some "/ca.pem", none, none⟩).2.2 (by decide +kernel)]
  decide +kernel

/-- A connection that is not encrypted, with a key file. -/
def unencryptedUrl : ConnectionUrl :=
  ⟨"postgres", "", none, "", none, "/library",
    some "host=/run&user=trove&sslmode=disable&sslrootcert=/run/good.pem", none⟩

/-- The key file of a connection that is not encrypted reaches the client, which knows no setting of the
name and refuses the whole address. -/
theorem settings_reach_client :
    ConnectionUrl.ofText?
        "postgres:///library?host=/run&user=trove&sslmode=disable&sslrootcert=/run/good.pem"
      = some unencryptedUrl
    ∧ passedPairs ⟨none, none, none, none⟩ unencryptedUrl
      = [("host", "/run"), ("user", "trove"), ("sslrootcert", "/run/good.pem")]
    ∧ passedPairs ⟨none, none, none, none⟩ unencryptedUrl ≠ otherPairs unencryptedUrl.pairs
    ∧ ClientSettings.ofUrl? (unencryptedUrl.secured ⟨none, none, none, none⟩).url = none := by
  refine ⟨?_, ?_, ?_, ?_⟩ <;> decide +kernel

end TypedStore.Server
