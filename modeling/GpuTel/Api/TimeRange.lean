import GpuTel.Telemetry.Models

/-!
# The time window of a request

`parseTimeRange` reads the window from four optional query parameters: two for each bound, of which
the newer spelling wins. `time.Parse` and `time.Now` are given from outside.
-/

set_option autoImplicit false

namespace GpuTel.Api

open GpuTel.Telemetry

/-- The query of a request, with the first value of each parameter. -/
abbrev Query := GoMap String

def defaultQuery (query : Query) (key defaultValue : String) : String :=
  (query.lookup key).getD defaultValue

variable (timeParse : String → Except String Time) (now : Time) (query : Query)

/-- A nil result is `none`. -/
def parseTimeParam (timeStr : String) : Except String (Option Time) :=
  if timeStr = "" then .ok none
  else (timeParse timeStr).map some

def startTimeStr : String :=
  let startTimeStr := defaultQuery query "start_time" ""
  if startTimeStr = "" then defaultQuery query "start" "" else startTimeStr

def endTimeStr : String :=
  let endTimeStr := defaultQuery query "end_time" ""
  if endTimeStr = "" then defaultQuery query "end" "" else endTimeStr

def parseTimeRange : Except String (Time × Time) :=
  let now := now.utc
  let defaultStart := now.add (-1 * (3600 * 10 ^ 9))
  match parseTimeParam timeParse (startTimeStr query) with
  | .error err => .error ("invalid start_time: " ++ err)
  | .ok startTime =>
    let startTime := startTime.getD defaultStart
    match parseTimeParam timeParse (endTimeStr query) with
    | .error err => .error ("invalid end_time: " ++ err)
    | .ok endTime =>
      let endTime := endTime.getD now
      if endTime.before startTime = true then .error "end time cannot be before start time"
      else .ok (startTime, endTime)

/-- The first text that is given for one of the keys and is not empty. -/
def firstGiven (keys : List String) : String :=
  ((keys.filterMap query.lookup).find? fun text => text ≠ "").getD ""

/-- Whether some text is given for one of the keys. -/
def Gives (keys : List String) : Prop :=
  ∃ key ∈ keys, ∃ text, query.lookup key = some text ∧ text ≠ ""

/-- A text that is given and is not a time. -/
def Malformed (timeStr : String) : Prop := timeStr ≠ "" ∧ ∃ err, timeParse timeStr = .error err

/-- The bound that a text stands for, if it is not malformed. -/
def resolved (timeStr : String) (default : Time) : Time :=
  if timeStr = "" then default else ((timeParse timeStr).toOption).getD default

def resolvedStart : Time :=
  resolved timeParse (firstGiven query ["start_time", "start"]) ⟨now.instant - 3600 * 10 ^ 9, 0⟩

def resolvedEnd : Time :=
  resolved timeParse (firstGiven query ["end_time", "end"]) ⟨now.instant, 0⟩

def Rejected : Prop :=
  Malformed timeParse (firstGiven query ["start_time", "start"]) ∨
    Malformed timeParse (firstGiven query ["end_time", "end"]) ∨
    (resolvedEnd timeParse now query).instant < (resolvedStart timeParse now query).instant

section Given

variable {query}

theorem firstGiven_ne_empty_iff {keys : List String} :
    firstGiven query keys ≠ "" ↔ Gives query keys := by
  unfold firstGiven Gives
  constructor
  · intro hne
    cases hfind : (keys.filterMap query.lookup).find? fun text => text ≠ "" with
    | none => exact absurd (by rw [hfind]; rfl) hne
    | some text =>
      obtain ⟨key, hkey, hlookup⟩ := List.mem_filterMap.mp (List.mem_of_find?_eq_some hfind)
      have htext := List.find?_some hfind
      exact ⟨key, hkey, text, hlookup, of_decide_eq_true htext⟩
  · rintro ⟨key, hkey, text, hlookup, htext⟩
    have hmem : text ∈ keys.filterMap query.lookup := List.mem_filterMap.mpr ⟨key, hkey, hlookup⟩
    cases hfind : (keys.filterMap query.lookup).find? fun text => text ≠ "" with
    | none => exact absurd (decide_eq_true htext) (List.find?_eq_none.mp hfind text hmem)
    | some first =>
      have hfirst := List.find?_some hfind
      exact of_decide_eq_true hfirst

variable (query)

theorem firstGiven_pair (key oldKey : String) :
    firstGiven query [key, oldKey] =
      if defaultQuery query key "" = "" then defaultQuery query oldKey ""
      else defaultQuery query key "" := by
  unfold firstGiven defaultQuery
  cases hold : query.lookup oldKey with
  | none =>
    cases hnew : query.lookup key with
    | none => simp [hold, hnew]
    | some text => by_cases htext : text = "" <;> simp [hold, hnew, htext]
  | some oldText =>
    cases hnew : query.lookup key with
    | none => by_cases holdText : oldText = "" <;> simp [hold, hnew, holdText]
    | some text =>
      by_cases htext : text = "" <;> by_cases holdText : oldText = "" <;>
        simp [hold, hnew, htext, holdText]

theorem startTimeStr_eq : startTimeStr query = firstGiven query ["start_time", "start"] :=
  (firstGiven_pair query "start_time" "start").symm

theorem endTimeStr_eq : endTimeStr query = firstGiven query ["end_time", "end"] :=
  (firstGiven_pair query "end_time" "end").symm

end Given

theorem defaultStart_eq :
    now.utc.add (-1 * (3600 * 10 ^ 9)) = ⟨now.instant - 3600 * 10 ^ 9, 0⟩ := by
  have hsub : now.instant + -1 * (3600 * 10 ^ 9) = now.instant - 3600 * 10 ^ 9 := by omega
  exact congrArg (Time.mk · 0) hsub

theorem parseTimeParam_cases (timeStr : String) (default : Time) :
    (Malformed timeParse timeStr ∧ ∃ err, parseTimeParam timeParse timeStr = .error err) ∨
    (¬ Malformed timeParse timeStr ∧ ∃ t, parseTimeParam timeParse timeStr = .ok t ∧
      t.getD default = resolved timeParse timeStr default) := by
  unfold parseTimeParam Malformed resolved
  by_cases hempty : timeStr = ""
  · exact Or.inr ⟨fun h => h.1 hempty, none, if_pos hempty, (if_pos hempty).symm⟩
  · rw [if_neg hempty, if_neg hempty]
    cases hparse : timeParse timeStr with
    | error err => exact Or.inl ⟨⟨hempty, err, rfl⟩, err, rfl⟩
    | ok t => exact Or.inr ⟨fun h => by simp at h, some t, rfl, rfl⟩

/-- The window is the resolved one, and there is one unless the request is to be rejected. -/
theorem parseTimeRange_cases :
    (Rejected timeParse now query ∧ ∃ err, parseTimeRange timeParse now query = .error err) ∨
    (¬ Rejected timeParse now query ∧ parseTimeRange timeParse now query =
      .ok (resolvedStart timeParse now query, resolvedEnd timeParse now query)) := by
  have hnow : now.utc = ⟨now.instant, 0⟩ := rfl
  simp only [parseTimeRange, startTimeStr_eq, endTimeStr_eq, defaultStart_eq]
  rcases parseTimeParam_cases timeParse (firstGiven query ["start_time", "start"])
    ⟨now.instant - 3600 * 10 ^ 9, 0⟩ with ⟨hbad, err, hstart⟩ | ⟨hgood, startTime, hstart, hstart'⟩
  · exact Or.inl ⟨Or.inl hbad, _, by rw [hstart]⟩
  · rcases parseTimeParam_cases timeParse (firstGiven query ["end_time", "end"])
      ⟨now.instant, 0⟩ with ⟨hbad', err, hend⟩ | ⟨hgood', endTime, hend, hend'⟩
    · exact Or.inl ⟨Or.inr (Or.inl hbad'), _, by rw [hstart, hend]⟩
    · simp only [hstart, hend, hnow, hstart', hend']
      by_cases hbefore : (resolvedEnd timeParse now query).instant <
          (resolvedStart timeParse now query).instant
      · refine Or.inl ⟨Or.inr (Or.inr hbefore), _, if_pos ?_⟩
        exact decide_eq_true hbefore
      · refine Or.inr ⟨?_, if_neg ?_⟩
        · rintro (h | h | h)
          · exact hgood h
          · exact hgood' h
          · exact hbefore h
        · exact fun h => hbefore (of_decide_eq_true h)

end GpuTel.Api
