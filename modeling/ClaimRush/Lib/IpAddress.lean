import Mathlib.Algebra.Ring.Nat
import Mathlib.Data.Fin.Basic
import Mathlib.Data.List.DropRight
import Mathlib.Data.List.Forall2
import Mathlib.Tactic.Common
import Mathlib.Tactic.IntervalCases

/-!
# Textual forms of IP addresses

An IPv4 address has one textual form, an IPv6 address many: the groups have one to
four digits of either case, one run of zero groups may be compressed, and the last
two groups may be written as an IPv4 address.
-/

namespace ClaimRush

abbrev Text := List Char

namespace Ip

/-! ## Hexadecimal groups -/

def hexDigits : Text := "0123456789abcdefABCDEF".toList

def hexValue (c : Char) : ℕ :=
  if c.isDigit then c.toNat - 48 else if c.isLower then c.toNat - 87 else c.toNat - 55

def hexNumber (g : Text) : ℕ := g.foldl (fun n c ↦ 16 * n + hexValue c) 0

theorem mem_hexDigits {c : Char} (h : c.isHexDigit = true) : c ∈ hexDigits := by
  have hrange : 48 ≤ c.toNat ∧ c.toNat ≤ 57 ∨ 97 ≤ c.toNat ∧ c.toNat ≤ 102 ∨
      65 ≤ c.toNat ∧ c.toNat ≤ 70 := by
    simp only [Char.isHexDigit, Char.isDigit, Bool.or_eq_true, Bool.and_eq_true,
      decide_eq_true_eq, UInt32.le_iff_toNat_le, ge_iff_le] at h
    rcases h with (h | h) | h
    · exact .inl h
    · exact .inr (.inl h)
    · exact .inr (.inr h)
  rw [← Char.ofNat_toNat c]
  rcases hrange with h | h | h <;> obtain ⟨hl, hu⟩ := h <;> interval_cases c.toNat <;> decide

theorem hexDigit_toLower {c : Char} (h : c.isHexDigit = true) :
    c.toLower.isHexDigit = true ∧ hexValue c.toLower = hexValue c := by
  have hall : (hexDigits.all fun c ↦
      c.toLower.isHexDigit && decide (hexValue c.toLower = hexValue c)) = true := by
    decide
  simpa using List.all_eq_true.mp hall c (mem_hexDigits h)

/-- One to four hexadecimal digits. -/
structure HexGroup (g : Text) (n : ℕ) : Prop where
  ne_nil : g ≠ []
  length_le : g.length ≤ 4
  hex : ∀ c ∈ g, c.isHexDigit = true
  value : hexNumber g = n

theorem HexGroup.toLower {g : Text} {n : ℕ} (h : HexGroup g n) :
    HexGroup (g.map Char.toLower) n where
  ne_nil := by simpa using h.ne_nil
  length_le := by simpa using h.length_le
  hex := by
    intro c hc
    obtain ⟨d, hd, rfl⟩ := List.mem_map.mp hc
    exact (hexDigit_toLower (h.hex d hd)).1
  value := by
    rw [← h.value, hexNumber, hexNumber, List.foldl_map]
    exact List.foldl_ext _ _ _ fun n c hc ↦ by rw [(hexDigit_toLower (h.hex c hc)).2]

theorem HexGroup.not_mem {g : Text} {n : ℕ} (h : HexGroup g n) {c : Char}
    (hc : c.isHexDigit = false) : c ∉ g := by
  intro hmem
  rw [h.hex c hmem] at hc
  cases hc

theorem mem_toDigits {n : ℕ} {c : Char} (h : c ∈ Nat.toDigits 16 n) :
    ∃ d < 16, c = Nat.digitChar d := by
  induction n using Nat.strongRecOn with
  | ind n ih =>
      by_cases hn : n < 16
      · rw [Nat.toDigits_of_lt_base hn] at h
        exact ⟨n, hn, List.mem_singleton.mp h⟩
      · rw [Nat.toDigits_of_base_le (by decide) (by omega)] at h
        rcases List.mem_append.mp h with h | h
        · exact ih (n / 16) (by omega) h
        · exact ⟨n % 16, Nat.mod_lt _ (by decide), List.mem_singleton.mp h⟩

theorem hexNumber_toDigits (n : ℕ) : hexNumber (Nat.toDigits 16 n) = n := by
  have hdigit : ∀ d < 16, hexValue (Nat.digitChar d) = d := by decide
  induction n using Nat.strongRecOn with
  | ind n ih =>
      by_cases hn : n < 16
      · simpa [Nat.toDigits_of_lt_base hn, hexNumber] using hdigit n hn
      · have hhead := ih (n / 16) (by omega)
        rw [hexNumber] at hhead ⊢
        rw [Nat.toDigits_of_base_le (by decide) (by omega), List.foldl_append, hhead,
          List.foldl_cons, List.foldl_nil, hdigit _ (Nat.mod_lt _ (by decide))]
        omega

/-- The digits without leading zeros. -/
theorem hexGroup_toDigits {n : ℕ} (h : n < 65536) : HexGroup (Nat.toDigits 16 n) n where
  ne_nil := Nat.toDigits_ne_nil
  length_le := (Nat.length_toDigits_le_iff (by decide) (by decide)).mpr h
  hex := by
    have hdigit : ∀ d < 16, (Nat.digitChar d).isHexDigit = true := by decide
    intro c hc
    obtain ⟨d, hd, rfl⟩ := mem_toDigits hc
    exact hdigit d hd
  value := hexNumber_toDigits n

theorem toDigits_toLower (n : ℕ) : (Nat.toDigits 16 n).map Char.toLower = Nat.toDigits 16 n := by
  have hdigit : ∀ d < 16, (Nat.digitChar d).toLower = Nat.digitChar d := by decide
  have hself : ∀ c ∈ Nat.toDigits 16 n, c.toLower = c := by
    intro c hc
    obtain ⟨d, hd, rfl⟩ := mem_toDigits hc
    exact hdigit d hd
  rw [List.map_congr_left hself, List.map_id']

/-! ## Addresses -/

/-- Eight groups of sixteen bits. -/
structure Ipv6 where
  words : List ℕ
  length_eq : words.length = 8
  lt : ∀ w ∈ words, w < 65536

/-- The eight groups of an address. -/
theorem Ipv6.exists_words (ip : Ipv6) : ∃ a b c d e f x y, ip.words = [a, b, c, d, e, f, x, y] ∧
    a < 65536 ∧ b < 65536 ∧ c < 65536 ∧ d < 65536 ∧ e < 65536 ∧ f < 65536 ∧ x < 65536 ∧
      y < 65536 := by
  obtain ⟨words, hlength, hlt⟩ := ip
  match words, hlength with
  | [a, b, c, d, e, f, x, y], _ => exact ⟨a, b, c, d, e, f, x, y, rfl, by simpa using hlt⟩

inductive Address
  | v4 (a b c d : Fin 256)
  | v6 (ip : Ipv6)

/-- The dotted form of four bytes. -/
def dotted (a b c d : ℕ) : Text := ['.'].intercalate ([a, b, c, d].map (Nat.toDigits 10))

def joined (gs : List Text) : Text := [':'].intercalate gs

/-- Groups, the last two of which may be written as an IPv4 address. -/
inductive Pieces : List Text → List ℕ → Prop
  | hex {gs : List Text} {ns : List ℕ} (h : List.Forall₂ HexGroup gs ns) : Pieces gs ns
  | dotted {gs : List Text} {ns : List ℕ} (h : List.Forall₂ HexGroup gs ns) (a b c d : Fin 256) :
      Pieces (gs ++ [dotted a b c d]) (ns ++ [256 * a.val + b.val, 256 * c.val + d.val])

/-- The textual forms of eight groups. -/
inductive Ipv6Spelling : Text → List ℕ → Prop
  | full {gs : List Text} {ns : List ℕ} (h : Pieces gs ns) (hlen : ns.length = 8) :
      Ipv6Spelling (joined gs) ns
  | compressed {hs ts : List Text} {ms ns : List ℕ} (hhead : List.Forall₂ HexGroup hs ms)
      (htail : Pieces ts ns) (hlen : ms.length + ns.length ≤ 7) :
      Ipv6Spelling (joined hs ++ ':' :: ':' :: joined ts)
        (ms ++ List.replicate (8 - (ms.length + ns.length)) 0 ++ ns)

/-- The run of zero groups from `i` on. -/
def zeroRun (ws : List ℕ) (i : ℕ) : ℕ := ((ws.drop i).takeWhile (· = 0)).length

/-- The first of the longest runs of zero groups. -/
def longestRun (ws : List ℕ) : ℕ :=
  (List.range 8).foldl (fun best i ↦ if zeroRun ws best < zeroRun ws i then i else best) 0

/-- The canonical form of a host in a URL. -/
def Ipv6.serialize (ip : Ipv6) : Text :=
  let groups := ip.words.map (Nat.toDigits 16)
  let i := longestRun ip.words
  let n := zeroRun ip.words i
  if n < 2 then joined groups
  else joined (groups.take i) ++ ':' :: ':' :: joined (groups.drop (i + n))

namespace Address

/-- The textual forms of an address. -/
def Spelling : Address → Text → Prop
  | v4 a b c d, s => s = dotted a b c d
  | v6 ip, s => Ipv6Spelling s ip.words

def canonical : Address → Text
  | v4 a b c d => dotted a b c d
  | v6 ip => ip.serialize

/-- The host of a URL, with brackets around IPv6. -/
def urlHost : Address → Text
  | v4 a b c d => dotted a b c d
  | v6 ip => '[' :: ip.serialize ++ [']']

/-- The IPv4 address that an IPv6 address embeds (`::ffff:0:0/96`). -/
def mapped : Address → Option Address
  | v4 .. => none
  | v6 ip =>
      let x := ip.words.getD 6 0
      let y := ip.words.getD 7 0
      if ip.words.take 6 = [0, 0, 0, 0, 0, 0xffff] then
        some (.v4 (Fin.ofNat 256 (x / 256)) (Fin.ofNat 256 x) (Fin.ofNat 256 (y / 256))
          (Fin.ofNat 256 y))
      else none

/-- The groups of an IPv6 address. -/
def words : Address → List ℕ
  | v4 .. => []
  | v6 ip => ip.words

/-- The value of an IPv4 address, embedded or not. -/
def v4Value : Address → Option ℕ
  | v4 a b c d => some (2 ^ 24 * a.val + 2 ^ 16 * b.val + 2 ^ 8 * c.val + d.val)
  | v6 ip =>
      if ip.words.take 6 = [0, 0, 0, 0, 0, 0xffff] then
        some (2 ^ 16 * ip.words.getD 6 0 + ip.words.getD 7 0)
      else none

/-- 127.0.0.0/8 and ::1. -/
def Loopback (A : Address) : Prop :=
  (∃ v ∈ A.v4Value, v / 2 ^ 24 = 127) ∨ A.words = [0, 0, 0, 0, 0, 0, 0, 1]

/-- 169.254.0.0/16 and fe80::/10. -/
def LinkLocal (A : Address) : Prop :=
  (∃ v ∈ A.v4Value, v / 2 ^ 16 = 169 * 2 ^ 8 + 254) ∨ ∃ w ∈ A.words.head?, w / 2 ^ 6 = 0x3fa

/-- 10.0.0.0/8, 172.16.0.0/12, 192.168.0.0/16, 100.64.0.0/10, :: and fc00::/7. -/
def Private (A : Address) : Prop :=
  (∃ v ∈ A.v4Value, v / 2 ^ 24 = 10 ∨ v / 2 ^ 20 = 172 * 2 ^ 4 + 1 ∨
    v / 2 ^ 16 = 192 * 2 ^ 8 + 168 ∨ v / 2 ^ 22 = 100 * 2 ^ 2 + 1) ∨
  A.words = List.replicate 8 0 ∨ ∃ w ∈ A.words.head?, w / 2 ^ 9 = 0x7e

end Address

/-! ## Joined groups -/

@[simp] theorem joined_nil : joined [] = [] := rfl

@[simp] theorem joined_singleton (g : Text) : joined [g] = g := List.intercalate_singleton

theorem joined_cons_cons (g g' : Text) (gs : List Text) :
    joined (g :: g' :: gs) = g ++ ':' :: joined (g' :: gs) := by
  simp [joined, List.intercalate_cons_cons]

theorem joined_concat {gs : List Text} (hgs : gs ≠ []) (g : Text) :
    joined (gs ++ [g]) = joined gs ++ ':' :: g := by
  induction gs with
  | nil => exact absurd rfl hgs
  | cons g' gs ih =>
      cases gs with
      | nil => simp [joined_cons_cons]
      | cons g'' gs =>
          have hrest := ih (List.cons_ne_nil _ _)
          simp only [List.cons_append] at hrest ⊢
          rw [joined_cons_cons, joined_cons_cons, hrest, List.append_assoc, List.cons_append]

theorem mem_joined {gs : List Text} {c : Char} (h : c ∈ joined gs) : c = ':' ∨ ∃ g ∈ gs, c ∈ g := by
  induction gs with
  | nil => cases h
  | cons g gs ih =>
      cases gs with
      | nil => exact .inr ⟨g, by simp, by simpa using h⟩
      | cons g' gs =>
          rw [joined_cons_cons, List.mem_append, List.mem_cons] at h
          rcases h with h | h | h
          · exact .inr ⟨g, by simp, h⟩
          · exact .inl h
          · exact (ih h).imp_right fun ⟨g'', hg'', hc⟩ ↦ ⟨g'', List.mem_cons_of_mem _ hg'', hc⟩

theorem map_joined (gs : List Text) {f : Char → Char} (hf : f ':' = ':') :
    (joined gs).map f = joined (gs.map (List.map f)) := by
  induction gs with
  | nil => rfl
  | cons g gs ih =>
      cases gs with
      | nil => simp
      | cons g' gs =>
          simp only [List.map_cons, joined_cons_cons, List.map_append, hf] at ih ⊢
          rw [ih]

theorem getLast?_joined (gs : List Text) {g : Text} (hg : g ≠ []) :
    (joined (gs ++ [g])).getLast? = g.getLast? := by
  by_cases hgs : gs = []
  · simp [hgs]
  · rw [joined_concat hgs, List.getLast?_append, List.getLast?_cons_of_ne_nil hg]
    cases hlast : g.getLast? with
    | none => exact absurd (List.getLast?_eq_none_iff.mp hlast) hg
    | some c => rfl

/-! ## Dotted addresses -/

theorem isDigit_toDigits {n : ℕ} {c : Char} (h : c ∈ Nat.toDigits 10 n) : c.isDigit = true :=
  Nat.isDigit_of_mem_toDigits (by decide) le_rfl h

theorem splitOn_dotted (a b c d : ℕ) :
    (dotted a b c d).splitOn '.' = [a, b, c, d].map (Nat.toDigits 10) := by
  refine List.splitOn_intercalate '.' ?_ (by simp)
  intro g hg hdot
  obtain ⟨n, -, rfl⟩ := List.mem_map.mp hg
  have hdigit := isDigit_toDigits hdot
  cases hdigit

theorem dotted_eq (a b c d : ℕ) : dotted a b c d = Nat.toDigits 10 a ++ '.' ::
    (Nat.toDigits 10 b ++ '.' :: (Nat.toDigits 10 c ++ '.' :: Nat.toDigits 10 d)) := by
  simp [dotted, List.intercalate_cons_cons]

theorem mem_dotted {a b c d : ℕ} {x : Char} (h : x ∈ dotted a b c d) :
    x.isDigit = true ∨ x = '.' := by
  simp only [dotted_eq, List.mem_append, List.mem_cons] at h
  rcases h with h | h | h | h | h | h | h
  all_goals first | exact .inl (isDigit_toDigits h) | exact .inr h

theorem dotted_ne_nil (a b c d : ℕ) : dotted a b c d ≠ [] := by
  simp [dotted_eq]

theorem dot_mem_dotted (a b c d : ℕ) : '.' ∈ dotted a b c d := by
  simp [dotted_eq]

theorem getLast?_dotted (a b c d : ℕ) : (dotted a b c d).getLast? ≠ some '.' := by
  have hne : Nat.toDigits 10 d ≠ [] := Nat.toDigits_ne_nil
  rw [dotted_eq]
  simp only [List.getLast?_append, List.getLast?_cons_of_ne_nil hne,
    List.getLast?_cons_of_ne_nil (List.append_ne_nil_of_right_ne_nil _ (List.cons_ne_nil _ _))]
  rw [List.getLast?_eq_some_getLast hne]
  simp only [Option.some_or, ne_eq, Option.some.injEq]
  intro hdot
  have hdigit := isDigit_toDigits (List.getLast_mem hne)
  rw [hdot] at hdigit
  cases hdigit

theorem isDigit_toLower {c : Char} (h : c.isDigit = true) : c.toLower = c := by
  have hall : ("0123456789".toList.all fun c ↦ c.toLower = c) = true := by decide
  refine of_decide_eq_true (List.all_eq_true.mp hall c ?_)
  rw [Char.isDigit_iff_toNat] at h
  obtain ⟨hl, hu⟩ := h
  simp only [Char.reduceToNat] at hl hu
  rw [← Char.ofNat_toNat c]
  interval_cases c.toNat <;> decide

theorem dotted_toLower (a b c d : ℕ) : (dotted a b c d).map Char.toLower = dotted a b c d := by
  have hself : ∀ x ∈ dotted a b c d, x.toLower = x := by
    intro x hx
    rcases mem_dotted hx with hdigit | rfl
    · exact isDigit_toLower hdigit
    · rfl
  rw [List.map_congr_left hself, List.map_id']

/-! ## Spellings -/

theorem forall₂_hexGroup_toLower {gs : List Text} {ns : List ℕ}
    (h : List.Forall₂ HexGroup gs ns) :
    List.Forall₂ HexGroup (gs.map (List.map Char.toLower)) ns :=
  List.forall₂_map_left_iff.mpr (h.imp fun _ _ hg ↦ hg.toLower)

theorem forall₂_hexGroup_toDigits {ns : List ℕ} (h : ∀ n ∈ ns, n < 65536) :
    List.Forall₂ HexGroup (ns.map (Nat.toDigits 16)) ns :=
  List.forall₂_map_left_iff.mpr (List.forall₂_same.mpr fun n hn ↦ hexGroup_toDigits (h n hn))

theorem exists_hexGroup {gs : List Text} {ns : List ℕ} (h : List.Forall₂ HexGroup gs ns) {g : Text}
    (hg : g ∈ gs) : ∃ n, HexGroup g n := by
  induction h with
  | nil => cases hg
  | cons hhead _ ih =>
      rcases List.mem_cons.mp hg with rfl | hg
      · exact ⟨_, hhead⟩
      · exact ih hg

/-- A group of hexadecimal digits, or the dotted form. -/
theorem Pieces.mem {gs : List Text} {ns : List ℕ} (h : Pieces gs ns) {g : Text} (hg : g ∈ gs) :
    (∃ n, HexGroup g n) ∨ ∃ a b c d : Fin 256, g = Ip.dotted a b c d := by
  cases h with
  | hex h => exact .inl (exists_hexGroup h hg)
  | dotted h a b c d =>
      rcases List.mem_append.mp hg with hg | hg
      · exact .inl (exists_hexGroup h hg)
      · exact .inr ⟨a, b, c, d, List.mem_singleton.mp hg⟩

theorem Pieces.ne_nil {gs : List Text} {ns : List ℕ} (h : Pieces gs ns) {g : Text} (hg : g ∈ gs) :
    g ≠ [] := by
  rcases h.mem hg with ⟨n, hn⟩ | ⟨a, b, c, d, rfl⟩
  · exact hn.ne_nil
  · exact dotted_ne_nil a b c d

theorem Pieces.colon_not_mem {gs : List Text} {ns : List ℕ} (h : Pieces gs ns) {g : Text}
    (hg : g ∈ gs) : ':' ∉ g := by
  rcases h.mem hg with ⟨n, hn⟩ | ⟨a, b, c, d, rfl⟩
  · exact hn.not_mem rfl
  · intro hcolon
    rcases mem_dotted hcolon with hdigit | hdot
    · cases hdigit
    · cases hdot

theorem Pieces.toLower {gs : List Text} {ns : List ℕ} (h : Pieces gs ns) :
    Pieces (gs.map (List.map Char.toLower)) ns := by
  cases h with
  | hex h => exact .hex (forall₂_hexGroup_toLower h)
  | dotted h a b c d =>
      rw [List.map_append, List.map_singleton, dotted_toLower]
      exact .dotted (forall₂_hexGroup_toLower h) a b c d

/-- The case of the letters does not matter. -/
theorem Ipv6Spelling.toLower {s : Text} {ws : List ℕ} (h : Ipv6Spelling s ws) :
    Ipv6Spelling (s.map Char.toLower) ws := by
  cases h with
  | full h hlen =>
      rw [map_joined _ rfl]
      exact .full h.toLower hlen
  | compressed hhead htail hlen =>
      simp only [List.map_append, List.map_cons, map_joined _ (f := Char.toLower) rfl]
      exact .compressed (forall₂_hexGroup_toLower hhead) htail.toLower hlen

theorem Pieces.mem_joined {gs : List Text} {ns : List ℕ} (h : Pieces gs ns) {c : Char}
    (hc : c ∈ joined gs) : c.isHexDigit = true ∨ c = ':' ∨ c = '.' := by
  rcases Ip.mem_joined hc with rfl | ⟨g, hg, hc⟩
  · exact .inr (.inl rfl)
  · rcases h.mem hg with ⟨n, hn⟩ | ⟨x, y, z, w, rfl⟩
    · exact .inl (hn.hex c hc)
    · rcases mem_dotted hc with hdigit | hdot
      · exact .inl (by simp [Char.isHexDigit, hdigit])
      · exact .inr (.inr hdot)

theorem Pieces.getLast?_joined {gs : List Text} {ns : List ℕ} (h : Pieces gs ns) :
    (joined gs).getLast? ≠ some '.' := by
  rcases List.eq_nil_or_concat gs with rfl | ⟨gs, g, rfl⟩
  · simp
  · rw [List.concat_eq_append] at h ⊢
    have hg : g ∈ gs ++ [g] := by simp
    rw [Ip.getLast?_joined gs (h.ne_nil hg)]
    rcases h.mem hg with ⟨n, hn⟩ | ⟨a, b, c, d, rfl⟩
    · exact fun hdot ↦ hn.not_mem rfl (List.mem_of_getLast? hdot)
    · exact getLast?_dotted a b c d

theorem Ipv6Spelling.mem {s : Text} {ws : List ℕ} (h : Ipv6Spelling s ws) {c : Char} (hc : c ∈ s) :
    c.isHexDigit = true ∨ c = ':' ∨ c = '.' := by
  cases h with
  | full h hlen => exact h.mem_joined hc
  | compressed hhead htail hlen =>
      simp only [List.mem_append, List.mem_cons] at hc
      rcases hc with hc | rfl | rfl | hc
      · exact (Pieces.hex hhead).mem_joined hc
      · exact .inr (.inl rfl)
      · exact .inr (.inl rfl)
      · exact htail.mem_joined hc

theorem Ipv6Spelling.getLast? {s : Text} {ws : List ℕ} (h : Ipv6Spelling s ws) :
    s.getLast? ≠ some '.' := by
  cases h with
  | full h hlen => exact h.getLast?_joined
  | @compressed hs ts ms ns hhead htail hlen =>
      intro hdot
      rw [List.getLast?_append, List.getLast?_cons_cons] at hdot
      by_cases hnil : joined ts = []
      · simp [hnil] at hdot
      · rw [List.getLast?_cons_of_ne_nil hnil, List.getLast?_eq_some_getLast hnil,
          Option.some_or, ← List.getLast?_eq_some_getLast hnil] at hdot
        exact htail.getLast?_joined hdot

theorem Pieces.length_le {gs : List Text} {ns : List ℕ} (h : Pieces gs ns) :
    ns.length ≤ gs.length + 1 := by
  cases h with
  | hex h => exact h.length_eq.ge.trans (Nat.le_succ _)
  | dotted h => simpa using h.length_eq.ge

theorem Ipv6Spelling.colon_mem {s : Text} {ws : List ℕ} (h : Ipv6Spelling s ws) : ':' ∈ s := by
  cases h with
  | @full gs _ h hlen =>
      have hlength := h.length_le
      match gs with
      | [] | [_] =>
          simp only [List.length_cons, List.length_nil] at hlength
          omega
      | g :: g' :: gs => simp [joined_cons_cons]
  | compressed => simp

theorem Ipv6Spelling.ne_nil {s : Text} {ws : List ℕ} (h : Ipv6Spelling s ws) : s ≠ [] :=
  List.ne_nil_of_mem h.colon_mem

/-! ## The canonical form -/

theorem zeroRun_le (ws : List ℕ) (i : ℕ) : zeroRun ws i ≤ ws.length - i := by
  rw [← List.length_drop]
  exact (List.takeWhile_sublist _).length_le

/-- The groups of a zero run are zero. -/
theorem take_zeroRun_drop (ws : List ℕ) (i : ℕ) : ws =
    ws.take i ++ List.replicate (zeroRun ws i) 0 ++ ws.drop (i + zeroRun ws i) := by
  have hzeros : (ws.drop i).takeWhile (· = 0) = List.replicate (zeroRun ws i) 0 := by
    refine List.eq_replicate_iff.mpr ⟨rfl, fun w hw ↦ ?_⟩
    simpa using List.mem_takeWhile_imp hw
  have hrest : (ws.drop i).dropWhile (· = 0) = ws.drop (i + zeroRun ws i) := by
    rw [← List.drop_drop]
    conv_rhs => rw [← List.takeWhile_append_dropWhile (p := (· = 0)) (l := ws.drop i)]
    exact (List.drop_left' rfl).symm
  rw [← hzeros, ← hrest, List.append_assoc, List.takeWhile_append_dropWhile,
    List.take_append_drop]

theorem Ipv6.serialize_spelling (ip : Ipv6) : Ipv6Spelling ip.serialize ip.words := by
  have hgroups := forall₂_hexGroup_toDigits ip.lt
  unfold Ipv6.serialize
  dsimp only
  by_cases hrun : zeroRun ip.words (longestRun ip.words) < 2
  · rw [if_pos hrun]
    exact .full (.hex hgroups) ip.length_eq
  · rw [if_neg hrun]
    have hle := zeroRun_le ip.words (longestRun ip.words)
    have hsplit := take_zeroRun_drop ip.words (longestRun ip.words)
    have hlength := ip.length_eq
    generalize longestRun ip.words = i at *
    generalize zeroRun ip.words i = n at *
    have hmissing : 8 - ((ip.words.take i).length + (ip.words.drop (i + n)).length) = n := by
      simp only [List.length_take, List.length_drop]
      omega
    have hspelling := Ipv6Spelling.compressed (List.forall₂_take i hgroups)
      (.hex (List.forall₂_drop (i + n) hgroups)) (by omega)
    rwa [hmissing, ← hsplit] at hspelling

/-- The canonical form has no capitals. -/
theorem Ipv6.serialize_toLower (ip : Ipv6) : ip.serialize.map Char.toLower = ip.serialize := by
  have hgroups (ws : List ℕ) : (ws.map (Nat.toDigits 16)).map (List.map Char.toLower) =
      ws.map (Nat.toDigits 16) := by
    rw [List.map_map]
    exact List.map_congr_left fun w _ ↦ toDigits_toLower w
  unfold Ipv6.serialize
  dsimp only
  split
  · rw [map_joined _ rfl, hgroups]
  · simp only [← List.map_take, ← List.map_drop, List.map_append, List.map_cons,
      map_joined _ (f := Char.toLower) rfl, hgroups]
    rfl

theorem Address.canonical_spelling (A : Address) : A.Spelling A.canonical := by
  cases A with
  | v4 a b c d => rfl
  | v6 ip => exact ip.serialize_spelling

/-- A form of an address holds digits, letters, colons and dots, and ends in no dot. -/
theorem Address.Spelling.chars {A : Address} {s : Text} (h : A.Spelling s) :
    (∀ c ∈ s, c.isHexDigit = true ∨ c = ':' ∨ c = '.') ∧ s.getLast? ≠ some '.' ∧ s ≠ [] := by
  cases A with
  | v4 a b c d =>
      obtain rfl := h
      refine ⟨fun x hx ↦ ?_, getLast?_dotted a b c d, dotted_ne_nil a b c d⟩
      rcases mem_dotted hx with hdigit | hdot
      · exact .inl (by simp [Char.isHexDigit, hdigit])
      · exact .inr (.inr hdot)
  | v6 ip =>
      exact ⟨fun c hc ↦ Ipv6Spelling.mem h hc, Ipv6Spelling.getLast? h, Ipv6Spelling.ne_nil h⟩

theorem Address.Spelling.toLower {A : Address} {s : Text} (h : A.Spelling s) :
    A.Spelling (s.map Char.toLower) := by
  cases A with
  | v4 a b c d =>
      obtain rfl := h
      exact dotted_toLower a b c d
  | v6 ip => exact Ipv6Spelling.toLower h

end Ip

end ClaimRush
