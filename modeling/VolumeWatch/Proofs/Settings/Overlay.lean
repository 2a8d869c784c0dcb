import Mathlib.Data.List.Nodup
import VolumeWatch.Command.Zones
import VolumeWatch.Proofs.Session.Hours
import VolumeWatch.Proofs.Settings.Lookahead
import VolumeWatch.Proofs.Settings.Validation
import VolumeWatch.Settings.Message

/-!
Settings from variables as an overlay over the standard settings (`Settings.Overlaid`). Variables
are refused for a session, for a maturity or for the numbers, and the first of these reasons is the
one that is told (`Settings.Refused`). Numbers that cannot be read are as good as missing ones
(`Settings.Drops`).
-/

namespace VolumeWatch

/-- The texts that name a maturity, in small letters. -/
def Maturity.names : Maturity → List String
  | .wallClock => ["wall", "wall_clock"]
  | .marketTime => ["market", "market_time"]

section Maturity

variable {α : Type} {text : String}

theorem Maturity.ofText_of_mem {m : Maturity} (h : text.map Char.toLower ∈ m.names) :
    (ofText text : Except (SettingsFault α) Maturity) = .ok m := by
  unfold ofText
  cases m <;> simp only [names, List.mem_cons, List.not_mem_nil, or_false] at h <;>
    rcases h with h | h <;> rw [h] <;> rfl

theorem Maturity.ofText_of_not_mem (h : ∀ m : Maturity, text.map Char.toLower ∉ m.names) :
    (ofText text : Except (SettingsFault α) Maturity) =
      .error (.unknownMaturity (text.map Char.toLower)) := by
  have hwall := h .wallClock
  have hmarket := h .marketTime
  simp only [names, List.mem_cons, List.not_mem_nil, or_false] at hwall hmarket
  exact (if_neg hwall).trans (if_neg hmarket)

/-- A maturity is told by one of its names. -/
theorem Maturity.ofText_eq_ok_iff {m : Maturity} :
    (ofText text : Except (SettingsFault α) Maturity) = .ok m ↔
      text.map Char.toLower ∈ m.names := by
  refine ⟨fun h => ?_, ofText_of_mem⟩
  by_cases hknown : ∀ m' : Maturity, text.map Char.toLower ∉ m'.names
  · cases (ofText_of_not_mem hknown).symm.trans h
  · obtain ⟨m', hm'⟩ := not_forall_not.mp hknown
    cases (ofText_of_mem hm').symm.trans h
    exact hm'

end Maturity

namespace Settings

open Calendar (Zones)

section Readings

variable {β : Type} {read : List Char → Option β} {vars : Variables} {name : String}
  {default value : β}

/-- What a variable gives: the value that it is read as without the blanks around it, or the default
if it is missing or cannot be read. -/
inductive Gives (read : List Char → Option β) (vars : Variables) (name : String) (default : β) :
    β → Prop where
  | value {text : String} {value : β} : vars name = some text →
    read (Text.trim text.toList) = some value → Gives read vars name default value
  | missing : vars name = none → Gives read vars name default default
  | unreadable {text : String} : vars name = some text → read (Text.trim text.toList) = none →
    Gives read vars name default default

theorem readOr_of_gives (h : Gives read vars name default value) :
    readOr read vars name default = value := by
  unfold readOr
  cases h with
  | value hgiven hread => rw [hgiven, Option.bind_some, hread, Option.getD_some]
  | missing habsent => rw [habsent, Option.bind_none, Option.getD_none]
  | unreadable hgiven hread => rw [hgiven, Option.bind_some, hread, Option.getD_none]

theorem gives_readOr (read : List Char → Option β) (vars : Variables) (name : String)
    (default : β) : Gives read vars name default (readOr read vars name default) := by
  obtain ⟨value, h⟩ : ∃ value, Gives read vars name default value := by
    cases hgiven : vars name with
    | none => exact ⟨default, .missing hgiven⟩
    | some text =>
      cases hread : read (Text.trim text.toList) with
      | none => exact ⟨default, .unreadable hgiven hread⟩
      | some value => exact ⟨value, .value hgiven hread⟩
  rw [readOr_of_gives h]
  exact h

end Readings

section Hours

/-- The variables that tell the hours of the session. -/
def sessionNames : List String := ["FLOW_SESSION_TZ", "FLOW_SESSION_OPEN", "FLOW_SESSION_CLOSE"]

def TellsHours (vars : Variables) : Prop := ∃ name ∈ sessionNames, (vars name).isSome

/-- The session that is told, with the regular hours in place of what is missing. -/
def sessionText (zones : Zones) (vars : Variables) : Except SessionFault Session :=
  Session.ofText zones ((vars "FLOW_SESSION_TZ").getD "America/New_York")
    ((vars "FLOW_SESSION_OPEN").getD "09:30") ((vars "FLOW_SESSION_CLOSE").getD "16:00")

variable {zones : Zones} {vars : Variables}

theorem not_tellsHours_iff : ¬ TellsHours vars ↔
    vars "FLOW_SESSION_TZ" = none ∧ vars "FLOW_SESSION_OPEN" = none ∧
      vars "FLOW_SESSION_CLOSE" = none := by
  simp [TellsHours, sessionNames]

theorem sessionOf_of_tellsHours (h : TellsHours vars) :
    sessionOf zones vars = sessionText zones vars := by
  unfold sessionOf sessionText
  split
  · rename_i hzone hopening hclosing
    exact absurd h (not_tellsHours_iff.mpr ⟨hzone, hopening, hclosing⟩)
  · rfl

theorem sessionOf_of_not_tellsHours (h : ¬ TellsHours vars) :
    sessionOf zones vars = .ok .regular := by
  obtain ⟨hzone, hopening, hclosing⟩ := not_tellsHours_iff.mp h
  unfold sessionOf
  rw [hzone, hopening, hclosing]

/-- Without hours that are told, the session is the regular one, and no fault. -/
theorem sessionOf_eq_iff {result : Except SessionFault Session} :
    sessionOf zones vars = result ↔ TellsHours vars ∧ sessionText zones vars = result ∨
      ¬ TellsHours vars ∧ .ok .regular = result := by
  by_cases h : TellsHours vars
  · rw [sessionOf_of_tellsHours h]
    simp [h]
  · rw [sessionOf_of_not_tellsHours h]
    simp [h]

end Hours

section Numbers

variable {vars vars' : Variables} {s : Settings Float} {n : ℕ} {fault : SettingsFault Float}
  {session : Session} {maturity : Maturity}

/-- Each number of the settings is what its variable gives, with the standard one as the default. -/
structure Numbers (vars : Variables) (s : Settings Float) : Prop where
  queueCapacity : Gives (Reading.nat? wordBound) vars "FLOW_QUEUE_CAPACITY"
    (standard : Settings Float).queueCapacity s.queueCapacity
  pollMillis : Gives (Reading.nat? wordBound) vars "FLOW_POLL_INTERVAL_MS"
    (standard : Settings Float).pollMillis s.pollMillis
  reportSeconds : Gives (Reading.nat? wordBound) vars "FLOW_REPORT_INTERVAL_SECS"
    (standard : Settings Float).reportSeconds s.reportSeconds
  proximity : Gives Reading.float? vars "FLOW_PROXIMITY"
    (standard : Settings Float).proximity s.proximity
  underlying : Gives (Reading.nat? (Nat.pow 2 32)) vars "FLOW_UNDERLYING_ID"
    (standard : Settings Float).underlying.id.toNat s.underlying.id.toNat
  strikeIncrement : Gives Reading.float? vars "FLOW_STRIKE_INCREMENT"
    (standard : Settings Float).strikeIncrement s.strikeIncrement
  lookahead : Gives (Reading.nat? wordBound) vars "FLOW_LOOKAHEAD_SECS"
    (standard : Settings Float).rule.lookahead.seconds s.rule.lookahead.seconds
  whole : s.rule.lookahead.IsWhole
  stopLoss : Gives Reading.float? vars "FLOW_STOP_LOSS_PCT"
    (standard : Settings Float).rule.stopLoss s.rule.stopLoss
  win : Gives Reading.float? vars "FLOW_WIN_PCT"
    (standard : Settings Float).rule.win s.rule.win

theorem numbers_overlay : Numbers vars (overlay vars session maturity) where
  queueCapacity := gives_readOr _ _ _ _
  pollMillis := gives_readOr _ _ _ _
  reportSeconds := gives_readOr _ _ _ _
  proximity := gives_readOr _ _ _ _
  underlying := by
    have hid : (overlay vars session maturity).underlying.id.toNat = _ :=
      UInt32.toNat_ofNat_of_lt (readOr_lt (by decide))
    rw [hid]
    exact gives_readOr _ _ _ _
  strikeIncrement := gives_readOr _ _ _ _
  lookahead := gives_readOr _ _ _ _
  whole := Calendar.Duration.isWhole_ofSeconds _
  stopLoss := gives_readOr _ _ _ _
  win := gives_readOr _ _ _ _

/-- Settings with these numbers are the overlaid ones. -/
theorem Numbers.eq_overlay (h : Numbers vars s) : s = overlay vars s.session s.maturity := by
  obtain ⟨capacity, poll, report, proximity, ⟨id⟩, increment, session, ⟨lookahead, stop, win⟩,
    maturity⟩ := s
  have hid : (readOr (Reading.nat? (Nat.pow 2 32)) vars "FLOW_UNDERLYING_ID"
      (standard : Settings Float).underlying.id.toNat).toUInt32 = id := by
    rw [readOr_of_gives h.underlying]
    exact UInt32.ofNat_toNat
  simp only [overlay, wordOr, floatOr, readOr_of_gives h.queueCapacity,
    readOr_of_gives h.pollMillis, readOr_of_gives h.reportSeconds, readOr_of_gives h.proximity,
    readOr_of_gives h.strikeIncrement, readOr_of_gives h.lookahead, readOr_of_gives h.stopLoss,
    readOr_of_gives h.win, hid, ← h.whole.eq_ofSeconds]

/-- The numbers alone decide which conditions are violated. -/
theorem exists_violation_iff : (∃ s, Numbers vars s ∧ Violation s n fault) ↔
    Violation (overlay vars session maturity) n fault := by
  constructor
  · rintro ⟨s, hs, h⟩
    rw [hs.eq_overlay, violation_iff] at h
    exact violation_iff.mpr h
  · intro h
    exact ⟨_, numbers_overlay, h⟩

end Numbers

section Refusals

variable {zones : Zones} {vars : Variables} {s : Settings Float} {n : ℕ}
  {fault : SettingsFault Float}

/-- Why variables are refused, in the order in which the reasons are looked for: hours that are
given and cannot be read, a text that names no maturity, and violations by the overlaid numbers. -/
inductive Refused (zones : Zones) (vars : Variables) : ℕ → SettingsFault Float → Prop where
  | session {fault : SessionFault} : TellsHours vars → sessionText zones vars = .error fault →
    Refused zones vars 0 (.session fault)
  | maturity {text : String} : vars "FLOW_MATURITY" = some text →
    (∀ m : Maturity, text.map Char.toLower ∉ m.names) →
    Refused zones vars 1 (.unknownMaturity (text.map Char.toLower))
  | number {s : Settings Float} {n : ℕ} {fault : SettingsFault Float} : Numbers vars s →
    Violation s n fault → Refused zones vars (n + 2) fault

/-- The settings are what the variables give, the numbers as well as the session and the
maturity. -/
structure Overlaid (zones : Zones) (vars : Variables) (s : Settings Float) : Prop
    extends Numbers vars s where
  session : TellsHours vars ∧ sessionText zones vars = .ok s.session ∨
    ¬ TellsHours vars ∧ s.session = .regular
  maturity : vars "FLOW_MATURITY" = none ∧ s.maturity = .wallClock ∨
    ∃ text, vars "FLOW_MATURITY" = some text ∧ text.map Char.toLower ∈ s.maturity.names

theorem refused_zero_iff :
    Refused zones vars 0 fault ↔ ∃ f, sessionOf zones vars = .error f ∧ fault = .session f := by
  constructor
  · intro h
    cases h with
    | session hgiven herror => exact ⟨_, sessionOf_eq_iff.mpr (Or.inl ⟨hgiven, herror⟩), rfl⟩
  · rintro ⟨f, herror, rfl⟩
    rcases sessionOf_eq_iff.mp herror with ⟨hgiven, herror⟩ | ⟨-, hregular⟩
    · exact .session hgiven herror
    · cases hregular

theorem refused_one_iff : Refused zones vars 1 fault ↔ maturityOf vars = .error fault := by
  unfold maturityOf
  constructor
  · intro h
    cases h with
    | maturity hgiven hunknown =>
      rw [hgiven]
      exact Maturity.ofText_of_not_mem hunknown
  · intro h
    cases hgiven : vars "FLOW_MATURITY" with
    | none =>
      rw [hgiven] at h
      cases h
    | some text =>
      rw [hgiven] at h
      have hunknown : ∀ m : Maturity, text.map Char.toLower ∉ m.names := by
        intro m hm
        cases (Maturity.ofText_of_mem hm).symm.trans h
      cases (Maturity.ofText_of_not_mem hunknown).symm.trans h
      exact .maturity hgiven hunknown

theorem refused_add_two_iff {session : Session} {maturity : Maturity} :
    Refused zones vars (n + 2) fault ↔ Violation (overlay vars session maturity) n fault := by
  rw [← exists_violation_iff]
  constructor
  · intro h
    cases h with
    | number hs h => exact ⟨_, hs, h⟩
  · rintro ⟨s, hs, h⟩
    exact .number hs h

/-- The reason that is told is the first one. -/
theorem ofVariables_eq_error_iff :
    ofVariables zones vars = .error fault ↔ First (Refused zones vars) fault := by
  unfold ofVariables
  -- a reason that does not hold leaves its place to the next one, down to those of validation
  cases hsession : sessionOf zones vars with
  | error f =>
    have hrefused := refused_zero_iff.mpr ⟨f, hsession, rfl⟩
    rw [first_iff_of_zero hrefused]
    · exact ⟨fun h => (Except.error.inj h).symm, fun h => h ▸ rfl⟩
    · intro c hc
      obtain ⟨g, hg, rfl⟩ := refused_zero_iff.mp hc
      cases hsession.symm.trans hg
      rfl
  | ok session =>
    have hread : ∀ c, ¬ Refused zones vars 0 c := by
      intro c hc
      obtain ⟨g, hg, -⟩ := refused_zero_iff.mp hc
      cases hsession.symm.trans hg
    rw [first_succ_iff hread]
    cases hmaturity : (maturityOf vars : Except (SettingsFault Float) Maturity) with
    | error f =>
      rw [first_iff_of_zero (refused_one_iff.mpr hmaturity)]
      · exact ⟨fun h => (Except.error.inj h).symm, fun h => h ▸ rfl⟩
      · intro c hc
        cases hmaturity.symm.trans (refused_one_iff.mp hc)
        rfl
    | ok maturity =>
      have hknown : ∀ c, ¬ Refused zones vars (0 + 1) c := by
        intro c hc
        cases hmaturity.symm.trans (refused_one_iff.mp hc)
      -- what is left are the violations, in the order of validation
      have hplaces : (fun n => Refused zones vars (n + 1 + 1)) =
          (overlay vars session maturity).Violation := by
        funext n other
        exact propext refused_add_two_iff
      rw [first_succ_iff hknown, hplaces]
      exact validate_eq_error_iff

theorem maturityOf_eq_ok_iff {m : Maturity} :
    (maturityOf vars : Except (SettingsFault Float) Maturity) = .ok m ↔
      vars "FLOW_MATURITY" = none ∧ m = .wallClock ∨
        ∃ text, vars "FLOW_MATURITY" = some text ∧ text.map Char.toLower ∈ m.names := by
  unfold maturityOf
  cases vars "FLOW_MATURITY" with
  | none => simp [eq_comm]
  | some text => simp [Maturity.ofText_eq_ok_iff]

/-- Variables give the overlaid settings if these are valid. -/
theorem ofVariables_eq_ok_iff :
    ofVariables zones vars = .ok s ↔ Overlaid zones vars s ∧ s.validate = .ok s := by
  simp only [ofVariables, bind_eq_ok_iff, mapError_eq_ok_iff, sessionOf_eq_iff, Except.ok.injEq,
    maturityOf_eq_ok_iff]
  constructor
  · rintro ⟨session, hsession, maturity, hmaturity, hvalid⟩
    obtain ⟨-, rfl⟩ := validate_eq_ok_iff.mp hvalid
    refine ⟨{ numbers_overlay with session := ?_, maturity := hmaturity }, hvalid⟩
    exact hsession.imp_right fun h => ⟨h.1, h.2.symm⟩
  · rintro ⟨hs, hvalid⟩
    refine ⟨s.session, hs.session.imp_right fun h => ⟨h.1, h.2.symm⟩, s.maturity, hs.maturity, ?_⟩
    rw [← hs.eq_overlay]
    exact hvalid

end Refusals

section Dropping

variable {β : Type} {read : List Char → Option β} {vars vars' : Variables} {name : String}
  {default value : β}

/-- The variables that give numbers, with the texts that can be read. -/
def numerals : List (String × (List Char → Bool)) :=
  [("FLOW_QUEUE_CAPACITY", fun cs => (Reading.nat? wordBound cs).isSome),
    ("FLOW_POLL_INTERVAL_MS", fun cs => (Reading.nat? wordBound cs).isSome),
    ("FLOW_REPORT_INTERVAL_SECS", fun cs => (Reading.nat? wordBound cs).isSome),
    ("FLOW_PROXIMITY", fun cs => (Reading.float? cs).isSome),
    ("FLOW_UNDERLYING_ID", fun cs => (Reading.nat? (Nat.pow 2 32) cs).isSome),
    ("FLOW_STRIKE_INCREMENT", fun cs => (Reading.float? cs).isSome),
    ("FLOW_LOOKAHEAD_SECS", fun cs => (Reading.nat? wordBound cs).isSome),
    ("FLOW_STOP_LOSS_PCT", fun cs => (Reading.float? cs).isSome),
    ("FLOW_WIN_PCT", fun cs => (Reading.float? cs).isSome)]

/-- A number is given that cannot be read. -/
def Unreadable (vars : Variables) (name : String) : Prop :=
  ∃ readable text, (name, readable) ∈ numerals ∧ vars name = some text ∧
    readable (Text.trim text.toList) = false

/-- Some of the numbers that cannot be read are missing, and all else is the same. -/
def Drops (vars vars' : Variables) : Prop :=
  ∀ name, vars' name = vars name ∨ vars' name = none ∧ Unreadable vars name

/-- Only numbers are missing. -/
theorem Drops.eq_of_not_mem (h : Drops vars vars') (hname : name ∉ numerals.map Prod.fst) :
    vars' name = vars name := by
  rcases h name with hsame | ⟨-, readable, text, hmem, -⟩
  · exact hsame
  · exact absurd (List.mem_map_of_mem (f := Prod.fst) hmem) hname

theorem nodup_numerals : (numerals.map Prod.fst).Nodup := by decide

/-- A number that is missing could not be read, so that the default is taken anyway. -/
theorem Drops.gives (h : Drops vars vars')
    (hname : (name, fun cs => (read cs).isSome) ∈ numerals)
    (hgives : Gives read vars name default value) : Gives read vars' name default value := by
  rcases h name with hsame | ⟨hnone, readable, text, hmem, hgiven, hread⟩
  · -- the variable is kept
    cases hgives with
    | value hgiven hvalue => exact .value (hsame.trans hgiven) hvalue
    | missing habsent => exact .missing (hsame.trans habsent)
    | unreadable hgiven hfails => exact .unreadable (hsame.trans hgiven) hfails
  · -- it is dropped, and was unreadable for the one reader that its name has
    obtain rfl : readable = fun cs => (read cs).isSome :=
      (Prod.ext_iff.mp (List.inj_on_of_nodup_map nodup_numerals hmem hname rfl)).2
    have hfails := Option.isNone_iff_eq_none.mp (Option.isSome_eq_false_iff.mp hread)
    obtain rfl : default = value :=
      (readOr_of_gives (.unreadable hgiven hfails)).symm.trans (readOr_of_gives hgives)
    exact .missing hnone

theorem Drops.numbers (h : Drops vars vars') {s : Settings Float} (hs : Numbers vars s) :
    Numbers vars' s where
  queueCapacity := h.gives (by simp [numerals]) hs.queueCapacity
  pollMillis := h.gives (by simp [numerals]) hs.pollMillis
  reportSeconds := h.gives (by simp [numerals]) hs.reportSeconds
  proximity := h.gives (by simp [numerals]) hs.proximity
  underlying := h.gives (by simp [numerals]) hs.underlying
  strikeIncrement := h.gives (by simp [numerals]) hs.strikeIncrement
  lookahead := h.gives (by simp [numerals]) hs.lookahead
  whole := hs.whole
  stopLoss := h.gives (by simp [numerals]) hs.stopLoss
  win := h.gives (by simp [numerals]) hs.win

theorem Drops.ofVariables_eq (h : Drops vars vars') (zones : Zones) :
    ofVariables zones vars' = ofVariables zones vars := by
  have hsession : sessionOf zones vars' = sessionOf zones vars := by
    simp only [sessionOf, h.eq_of_not_mem (by decide : "FLOW_SESSION_TZ" ∉ _),
      h.eq_of_not_mem (by decide : "FLOW_SESSION_OPEN" ∉ _),
      h.eq_of_not_mem (by decide : "FLOW_SESSION_CLOSE" ∉ _)]
  have hmaturity :
      (maturityOf vars' : Except (SettingsFault Float) Maturity) = maturityOf vars := by
    simp only [maturityOf, h.eq_of_not_mem (by decide : "FLOW_MATURITY" ∉ _)]
  have hoverlay (session maturity) :
      overlay vars' session maturity = overlay vars session maturity :=
    (h.numbers numbers_overlay).eq_overlay.symm
  simp only [ofVariables, hsession, hmaturity, hoverlay]

end Dropping

/-- Whatever names stand for zones, variables give settings exactly if their overlay over the standard
settings is valid, with hours that a session may have. Else they are refused for the first of the
reasons against them, as a configuration that cannot be used. It makes no difference whether a
number cannot be read or is missing. -/
theorem ofVariables_overlays (zones : Zones) (vars : Variables) :
    (∀ s, ofVariables zones vars = .ok s ↔ Overlaid zones vars s ∧ s.validate = .ok s) ∧
    (∀ s, ofVariables zones vars = .ok s → s.session.opening < s.session.closing ∧
      Session.slots s.session.opening s.session.closing ≤ Category.cardinality SessionSlot) ∧
    (∀ fault, ofVariables zones vars = .error fault ↔ First (Refused zones vars) fault) ∧
    ((∃ fault, ofVariables zones vars = .error fault) ↔ ∃ n fault, Refused zones vars n fault) ∧
    (∀ fault, ofVariables zones vars = .error fault → fault.toFault = .config fault.message) ∧
    ∀ vars', Drops vars vars' → ofVariables zones vars' = ofVariables zones vars := by
  refine ⟨fun s => ofVariables_eq_ok_iff, fun s hs => ?hours, fun fault => ofVariables_eq_error_iff,
    ?refused, fun _ _ => rfl, fun vars' h => h.ofVariables_eq zones⟩
  case hours =>
    rcases (ofVariables_eq_ok_iff.mp hs).1.session with ⟨-, htext⟩ | ⟨-, hregular⟩
    · exact (Session.ofText_eq_ok_iff.mp htext).2.2.2
    · rw [hregular]
      decide
  case refused =>
    rw [← exists_first_iff]
    exact exists_congr fun fault => ofVariables_eq_error_iff

/-- Only one variable is given. -/
def only (given text : String) : Variables := fun name => if name = given then some text else none

/-- A capacity that is no number is as good as none. A strike increment that is not a number can be
read, and is refused. -/
theorem ofVariables_overlays_lots :
    (∃ s, ofVariables Command.zones (only "FLOW_QUEUE_CAPACITY" "lots") = .ok s ∧
      s.queueCapacity = 10000 ∧ s.session.opening < s.session.closing) ∧
    ∃ fault, ofVariables Command.zones (only "FLOW_STRIKE_INCREMENT" "NaN") = .error fault := by
  constructor
  · obtain ⟨hok, hours, -, -, -, hdrop⟩ :=
      ofVariables_overlays Command.zones (only "FLOW_QUEUE_CAPACITY" "lots")
    have hdrops : Drops (only "FLOW_QUEUE_CAPACITY" "lots") fun _ => none := by
      intro name
      by_cases hname : name = "FLOW_QUEUE_CAPACITY"
      · subst hname
        exact Or.inr ⟨rfl, _, "lots", .head _, rfl, rfl⟩
      · exact Or.inl (if_neg hname).symm
    have hsome : (ofVariables Command.zones fun _ => none).isOk := by decide +kernel
    rw [hdrop _ hdrops] at hsome
    cases hs : ofVariables Command.zones (only "FLOW_QUEUE_CAPACITY" "lots") with
    | error fault => simp [hs, Except.isOk, Except.toBool] at hsome
    | ok s =>
      have hread := readOr_of_gives ((hok s).mp hs).1.queueCapacity
      exact ⟨s, rfl, hread.symm, (hours s hs).1⟩
  · have hnumbers : Numbers (only "FLOW_STRIKE_INCREMENT" "NaN")
        (overlay (only "FLOW_STRIKE_INCREMENT" "NaN") .regular .wallClock) := numbers_overlay
    refine (ofVariables_overlays _ _).2.2.2.1.mpr ⟨5, _, .number hnumbers (.strikeIncrement ?_)⟩
    exact fun h => absurd h.1 (by decide +kernel)

end Settings

end VolumeWatch
