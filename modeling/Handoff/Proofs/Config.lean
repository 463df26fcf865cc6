import Handoff.Config
import Handoff.Proofs.CommandLine

/-!
# Settings in effect

* `Config.Precedence`: for each setting by itself, the command line comes first, then the
  environment, then the default.
* `Config.NumbersAgree`: the command line and the environment read the same numbers and differ in
  what they do with other texts.
* `Config.precedence_of_setsAll`, `Config.numbersAgree`: both hold, the first under every command
  line that is accepted.
-/

namespace Handoff

namespace Config

open CommandLine (Setting SetsAll Spelled parse)
open Decimal (IsNumeral)

variable {e e' : Environment} {given given' : List Setting} {c c' : Config} {line : CommandLine}
  {s t : String} {n : Nat}

/-- The settings in effect in `c` if `given` is on the command line and `e` is the environment. -/
structure Precedence (given : List Setting) (e : Environment) (c : Config) : Prop where
  /-- An address that is given is in effect. -/
  addr_given : ∀ v, (.addr, v) ∈ given → v = .ofString c.addr
  /-- Else the one of the environment is. -/
  addr_variable : (∀ v, (.addr, v) ∉ given) → ∀ s, e.getText? addrVariable = some s → c.addr = s
  /-- Else the default is. -/
  addr_default : (∀ v, (.addr, v) ∉ given) → e.getText? addrVariable = none → c.addr = defaultAddr
  /-- A drain timeout that is given is a numeral below `2 ^ 64`, and in effect. -/
  drain_given : ∀ v, (.drainTimeoutSecs, v) ∈ given →
    ∃ s n, v = .ofString s ∧ IsNumeral UInt64.size s.toList n ∧ c.drainTimeout = .ofSeconds n
  /-- Else the one of the environment is, if it is a numeral. -/
  drain_variable : (∀ v, (.drainTimeoutSecs, v) ∉ given) → ∀ s n,
    e.getText? drainTimeoutVariable = some s → IsNumeral UInt64.size s.toList n →
      c.drainTimeout = .ofSeconds n
  /-- Else the default is. -/
  drain_default : (∀ v, (.drainTimeoutSecs, v) ∉ given) →
    (∀ s n, e.getText? drainTimeoutVariable = some s → ¬ IsNumeral UInt64.size s.toList n) →
      c.drainTimeout = .ofSeconds defaultDrainTimeoutSecs

/-- What the command line and the environment `e` make of the same drain timeout `t`. -/
structure NumbersAgree (t : String) (e : Environment) : Prop where
  /-- A numeral is read on both ways, as the same time. -/
  numeral : ∀ n, IsNumeral UInt64.size t.toList n →
    parse [.ofString ("--drain-timeout-secs=" ++ t)] = .ok { drainTimeoutSecs := some n } ∧
      readSeconds? e = some n ∧ (ofEnvironment e).drainTimeout = .ofSeconds n ∧
      ∀ e', ((ofEnvironment e').override { drainTimeoutSecs := some n }).drainTimeout = .ofSeconds n
  /-- Anything else is an error on the command line, and as good as nothing in the environment. -/
  other : (∀ n, ¬ IsNumeral UInt64.size t.toList n) →
    (∃ error, parse [.ofString ("--drain-timeout-secs=" ++ t)] =
      .error (.invalidValue .drainTimeoutSecs t error)) ∧
      readSeconds? e = none ∧
      (ofEnvironment e).drainTimeout = .ofSeconds defaultDrainTimeoutSecs

/-! ## The environment -/

theorem readSeconds?_eq_some_iff :
    readSeconds? e = some n ↔
      ∃ s, e.getText? drainTimeoutVariable = some s ∧ IsNumeral UInt64.size s.toList n := by
  simp only [readSeconds?, Option.bind_eq_some_iff, ← Decimal.read64_eq_ok_iff]
  refine exists_congr fun s => and_congr_right fun _ => ?_
  cases Decimal.read64 s <;> simp [Except.toOption]

theorem readSeconds?_eq_none_iff :
    readSeconds? e = none ↔
      ∀ s n, e.getText? drainTimeoutVariable = some s → ¬ IsNumeral UInt64.size s.toList n := by
  rw [Option.eq_none_iff_forall_ne_some]
  simp only [ne_eq, readSeconds?_eq_some_iff, not_exists, not_and]
  exact forall_comm

/-! ## Under a command line -/

theorem addr_override_ofEnvironment (e : Environment) (line : CommandLine) :
    ((ofEnvironment e).override line).addr =
      line.addr.getD ((e.getText? addrVariable).getD defaultAddr) := rfl

theorem drainTimeout_override_ofEnvironment (e : Environment) (line : CommandLine) :
    ((ofEnvironment e).override line).drainTimeout =
      .ofSeconds (line.drainTimeoutSecs.getD ((readSeconds? e).getD defaultDrainTimeoutSecs)) := by
  cases h : line.drainTimeoutSecs <;> simp [override, ofEnvironment, h]

theorem precedence_of_setsAll (h : SetsAll {} given line) :
    Precedence given e ((ofEnvironment e).override line) where
  addr_given v hv := by
    obtain ⟨x, hx, hvalue⟩ := h.taken _ hv
    cases hx with
    | addr s =>
      obtain ⟨_, haddr, ⟨⟩⟩ := Option.map_eq_some_iff.mp hvalue
      rw [addr_override_ofEnvironment, haddr, Option.getD_some]
      rfl
  addr_variable hno s hs := by
    rw [addr_override_ofEnvironment, h.addr_eq_none hno, hs]
    rfl
  addr_default hno hs := by
    rw [addr_override_ofEnvironment, h.addr_eq_none hno, hs]
    rfl
  drain_given v hv := by
    obtain ⟨x, hx, hvalue⟩ := h.taken _ hv
    cases hx with
    | @drainTimeoutSecs s n hn =>
      obtain ⟨_, hdrain, ⟨⟩⟩ := Option.map_eq_some_iff.mp hvalue
      refine ⟨s, n, rfl, hn, ?_⟩
      rw [drainTimeout_override_ofEnvironment, hdrain, Option.getD_some]
  drain_variable hno s n hs hn := by
    rw [drainTimeout_override_ofEnvironment, h.drain_eq_none hno,
      readSeconds?_eq_some_iff.mpr ⟨s, hs, hn⟩]
    rfl
  drain_default hno hs := by
    rw [drainTimeout_override_ofEnvironment, h.drain_eq_none hno,
      readSeconds?_eq_none_iff.mpr hs]
    rfl

/-! ## One setting by itself -/

theorem Precedence.addr_eq (h : Precedence given e c) (h' : Precedence given' e' c')
    (hgiven : ∀ v, (.addr, v) ∈ given ↔ (.addr, v) ∈ given')
    (he : e.getText? addrVariable = e'.getText? addrVariable) : c.addr = c'.addr := by
  by_cases hno : ∀ v, (.addr, v) ∉ given
  · have hno' : ∀ v, (.addr, v) ∉ given' := fun v hv => hno v ((hgiven v).mpr hv)
    cases hs : e.getText? addrVariable with
    | none => rw [h.addr_default hno hs, h'.addr_default hno' (he ▸ hs)]
    | some s => rw [h.addr_variable hno s hs, h'.addr_variable hno' s (he ▸ hs)]
  · obtain ⟨v, hv⟩ := not_forall_not.mp hno
    exact OsText.ofString_injective
      ((h.addr_given v hv).symm.trans (h'.addr_given v ((hgiven v).mp hv)))

theorem Precedence.drainTimeout_eq (h : Precedence given e c) (h' : Precedence given' e' c')
    (hgiven : ∀ v, (.drainTimeoutSecs, v) ∈ given ↔ (.drainTimeoutSecs, v) ∈ given')
    (he : e.getText? drainTimeoutVariable = e'.getText? drainTimeoutVariable) :
    c.drainTimeout = c'.drainTimeout := by
  by_cases hno : ∀ v, (.drainTimeoutSecs, v) ∉ given
  · have hno' : ∀ v, (.drainTimeoutSecs, v) ∉ given' := fun v hv => hno v ((hgiven v).mpr hv)
    by_cases hs : ∃ s n, e.getText? drainTimeoutVariable = some s ∧ IsNumeral UInt64.size s.toList n
    · obtain ⟨s, n, hs, hn⟩ := hs
      rw [h.drain_variable hno s n hs hn, h'.drain_variable hno' s n (he ▸ hs) hn]
    · have hs : ∀ s n, e.getText? drainTimeoutVariable = some s →
          ¬ IsNumeral UInt64.size s.toList n := fun s n hsome hn => hs ⟨s, n, hsome, hn⟩
      rw [h.drain_default hno hs, h'.drain_default hno' (he ▸ hs)]
  · obtain ⟨v, hv⟩ := not_forall_not.mp hno
    obtain ⟨s, n, hs, hn, hc⟩ := h.drain_given v hv
    obtain ⟨s', n', hs', hn', hc'⟩ := h'.drain_given v ((hgiven v).mp hv)
    obtain rfl := OsText.ofString_injective (hs.symm.trans hs')
    rw [hc, hc', hn.unique hn']

/-! ## Numbers -/

theorem parse_drainTimeoutSecs (t : String) :
    parse [.ofString ("--drain-timeout-secs=" ++ t)] =
      match Decimal.read64 t with
      | .ok n => .ok { drainTimeoutSecs := some n }
      | .error error => .error (.invalidValue .drainTimeoutSecs t error) := by
  have hspelled : Spelled [.ofString ("--drain-timeout-secs=" ++ t)]
      [(.drainTimeoutSecs, .ofString t)] := by
    rw [← OsText.prepend_ofString]
    exact .attached (.equals _ (.long .drainTimeoutSecs)) .nil
  rw [CommandLine.parse_eq hspelled]
  simp only [CommandLine.assignAll, CommandLine.assign, OsText.toString?_ofString]
  cases Decimal.read64 t <;> rfl

/-- **Numbers.** Both ways read them by `Decimal.read64`. -/
theorem numbersAgree (he : e.get? drainTimeoutVariable = some (.ofString t)) :
    NumbersAgree t e := by
  have htext : e.getText? drainTimeoutVariable = some t := by
    rw [Environment.getText?, he, Option.bind_some, OsText.toString?_ofString]
  refine ⟨fun n hn => ?_, fun hno => ?_⟩
  · have hread : readSeconds? e = some n := readSeconds?_eq_some_iff.mpr ⟨t, htext, hn⟩
    rw [parse_drainTimeoutSecs, Decimal.read64_eq_ok_iff.mpr hn]
    exact ⟨rfl, hread, by rw [ofEnvironment, hread]; rfl, fun _ => rfl⟩
  · have hread : readSeconds? e = none := by
      refine readSeconds?_eq_none_iff.mpr fun s n hs hn => ?_
      obtain rfl := Option.some.inj (htext.symm.trans hs)
      exact hno n hn
    refine ⟨?_, hread, by rw [ofEnvironment, hread]; rfl⟩
    rw [parse_drainTimeoutSecs]
    cases h : Decimal.read64 t with
    | error error => exact ⟨error, rfl⟩
    | ok n => exact absurd (Decimal.read64_eq_ok_iff.mp h) (hno n)

/-! ## Results -/

/-- **Settings in effect.** An accepted command line spells settings, no option twice, and each
setting in effect has its `Precedence`: it follows them, then the environment, then the default. It
depends on its own option and its own variable only. For the drain timeout, both read the same
numbers, and of other texts the command line makes an error and the environment nothing. -/
theorem settings_in_effect :
    (∀ (args : List OsText) (e : Environment) (line : CommandLine), parse args = .ok line →
      (∃ given, Spelled args given) ∧ ∀ given, Spelled args given →
        (given.map Prod.fst).Nodup ∧ Precedence given e ((ofEnvironment e).override line)) ∧
    (∀ (args args' : List OsText) (e e' : Environment) (line line' : CommandLine)
        (given given' : List Setting),
      parse args = .ok line → parse args' = .ok line' → Spelled args given → Spelled args' given' →
        ((∀ v, (.addr, v) ∈ given ↔ (.addr, v) ∈ given') →
          e.getText? addrVariable = e'.getText? addrVariable →
            ((ofEnvironment e).override line).addr = ((ofEnvironment e').override line').addr) ∧
        ((∀ v, (.drainTimeoutSecs, v) ∈ given ↔ (.drainTimeoutSecs, v) ∈ given') →
          e.getText? drainTimeoutVariable = e'.getText? drainTimeoutVariable →
            ((ofEnvironment e).override line).drainTimeout =
              ((ofEnvironment e').override line').drainTimeout)) ∧
    ∀ (t : String) (e : Environment), e.get? drainTimeoutVariable = some (.ofString t) →
      NumbersAgree t e := by
  -- Whatever is spelled is also what was read, so the precedence holds of any reading of `args`.
  have follows : ∀ (args : List OsText) (e : Environment) (line : CommandLine) (given),
      parse args = .ok line → Spelled args given →
        (given.map Prod.fst).Nodup ∧ Precedence given e ((ofEnvironment e).override line) := by
    intro args e line given hparse hargs
    have hall := CommandLine.assignAll_eq_ok_iff.mp (CommandLine.parse_eq hargs ▸ hparse)
    exact ⟨hall.nodup, precedence_of_setsAll hall⟩
  refine ⟨fun args e line hparse => ?_, ?_, fun t e he => numbersAgree he⟩
  · exact ⟨CommandLine.spelled_of_parse hparse, fun given => follows args e line given hparse⟩
  · intro args args' e e' line line' given given' hparse hparse' hargs hargs'
    have h := (follows args e line given hparse hargs).2
    have h' := (follows args' e' line' given' hparse' hargs').2
    exact ⟨h.addr_eq h', h.drainTimeout_eq h'⟩

/-- An address of the command line and a drain timeout of the environment, and the greatest numeral
that is read. -/
theorem settings_in_effect_mixed :
    parse [.ofString "--addr=/run/echo.sock"] = .ok { addr := some "/run/echo.sock" } ∧
    Precedence [(.addr, .ofString "/run/echo.sock")]
      (Environment.empty.set drainTimeoutVariable "18446744073709551615")
      ⟨"/run/echo.sock", .ofSeconds 18446744073709551615⟩ ∧
    parse [.ofString ("--drain-timeout-secs=" ++ "18446744073709551615")] =
      .ok { drainTimeoutSecs := some 18446744073709551615 } := by
  have hparse : parse [.ofString "--addr=/run/echo.sock"] =
      .ok { addr := some "/run/echo.sock" } := rfl
  have hspelled : Spelled [.ofString "--addr=/run/echo.sock"]
      [(.addr, .ofString "/run/echo.sock")] := .attached (.equals _ (.long .addr)) .nil
  have hnumeral : IsNumeral UInt64.size "18446744073709551615".toList 18446744073709551615 :=
    Decimal.read64_eq_ok_iff.mp rfl
  obtain ⟨hfollows, -, hnumbers⟩ := settings_in_effect
  refine ⟨hparse, ?_, ?_⟩
  · exact ((hfollows _ (Environment.empty.set drainTimeoutVariable "18446744073709551615") _
      hparse).2 _ hspelled).2
  · exact ((hnumbers _ _ (Environment.get?_set_self .empty drainTimeoutVariable
      "18446744073709551615")).numeral _ hnumeral).1

end Config

end Handoff
