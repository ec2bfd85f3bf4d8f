import GpuTel.Api.Handlers

/-!
# Leaving a bound out

A bound that is left out is replaced by a default that depends on the clock, and the window is
checked as if it had been given: a start that is left out lies an hour back, an end lies now. A
request can therefore be refused for want of a bound.
-/

set_option autoImplicit false

namespace GpuTel.Api

open GpuTel.Telemetry

/-- The request without its start, under either spelling. -/
def omitStart (query : Query) : Query := (query.erase "start_time").erase "start"

def omitEnd (query : Query) : Query := (query.erase "end_time").erase "end"

section Omit

variable (query : Query)

theorem defaultQuery_erase (erased key defaultValue : String) :
    defaultQuery (query.erase erased) key defaultValue =
      if key = erased then defaultValue else defaultQuery query key defaultValue := by
  rw [defaultQuery, Finmap.lookup_erase_eq]
  split <;> rfl

theorem startTimeStr_omitStart : startTimeStr (omitStart query) = "" := by
  simp [startTimeStr, omitStart, defaultQuery_erase]

theorem endTimeStr_omitStart : endTimeStr (omitStart query) = endTimeStr query := by
  simp only [endTimeStr, omitStart, defaultQuery_erase]
  rfl

theorem startTimeStr_omitEnd : startTimeStr (omitEnd query) = startTimeStr query := by
  simp only [startTimeStr, omitEnd, defaultQuery_erase]
  rfl

theorem endTimeStr_omitEnd : endTimeStr (omitEnd query) = "" := by
  simp [endTimeStr, omitEnd, defaultQuery_erase]

end Omit

section Bounds

variable (timeParse : String → Except String Time) (now : Time) {query : Query}

theorem parseTimeParam_empty : parseTimeParam timeParse "" = .ok none := if_pos rfl

theorem parseTimeParam_of_ok {timeStr : String} {t : Time} (hne : timeStr ≠ "")
    (h : timeParse timeStr = .ok t) : parseTimeParam timeParse timeStr = .ok (some t) := by
  rw [parseTimeParam, if_neg hne, h]
  rfl

theorem bounds_of_accepted {startTime endTime : Time} (hstart : startTimeStr query ≠ "")
    (hend : endTimeStr query ≠ "")
    (hok : parseTimeRange timeParse now query = .ok (startTime, endTime)) :
    timeParse (startTimeStr query) = .ok startTime ∧
      timeParse (endTimeStr query) = .ok endTime := by
  unfold parseTimeRange parseTimeParam at hok
  rw [if_neg hstart, if_neg hend] at hok
  cases hs : timeParse (startTimeStr query) with
  | error err => simp [hs, Except.map] at hok
  | ok t =>
    cases he : timeParse (endTimeStr query) with
    | error err => simp [hs, he, Except.map] at hok
    | ok u =>
      simp only [hs, he, Except.map, Option.getD_some] at hok
      split at hok
      · cases hok
      · obtain ⟨rfl, rfl⟩ := Prod.mk.inj (Except.ok.inj hok)
        exact ⟨rfl, rfl⟩

/-- For every clock and every accepted request that gives both bounds: without its start it is
accepted, with the window from an hour ago to its end, unless the end lies further back than that;
without its end it is accepted, with the window from its start to now, unless the start lies in the
future. -/
theorem parseTimeRange_omit {startTime endTime : Time}
    (hstart : Gives query ["start_time", "start"]) (hend : Gives query ["end_time", "end"])
    (hok : parseTimeRange timeParse now query = .ok (startTime, endTime)) :
    parseTimeRange timeParse now (omitStart query) =
        (if now.instant - 3600 * 10 ^ 9 ≤ endTime.instant then
          .ok (⟨now.instant - 3600 * 10 ^ 9, 0⟩, endTime)
        else .error "end time cannot be before start time") ∧
      parseTimeRange timeParse now (omitEnd query) =
        (if startTime.instant ≤ now.instant then .ok (startTime, ⟨now.instant, 0⟩)
        else .error "end time cannot be before start time") := by
  replace hstart : startTimeStr query ≠ "" :=
    startTimeStr_eq query ▸ firstGiven_ne_empty_iff.mpr hstart
  replace hend : endTimeStr query ≠ "" :=
    endTimeStr_eq query ▸ firstGiven_ne_empty_iff.mpr hend
  obtain ⟨hparseStart, hparseEnd⟩ := bounds_of_accepted timeParse now hstart hend hok
  constructor
  · have hend' := parseTimeParam_of_ok timeParse hend hparseEnd
    simp only [parseTimeRange, startTimeStr_omitStart, endTimeStr_omitStart, parseTimeParam_empty,
      hend', defaultStart_eq, Option.getD_none, Option.getD_some]
    by_cases hle : now.instant - 3600 * 10 ^ 9 ≤ endTime.instant
    · have hnot : ¬ endTime.before ⟨now.instant - 3600 * 10 ^ 9, 0⟩ = true :=
        fun hbefore => absurd (of_decide_eq_true hbefore) (Int.not_lt.mpr hle)
      rw [if_pos hle, if_neg hnot]
    · have hbefore : endTime.before ⟨now.instant - 3600 * 10 ^ 9, 0⟩ = true :=
        decide_eq_true (Int.not_le.mp hle)
      rw [if_neg hle, if_pos hbefore]
  · have hstart' := parseTimeParam_of_ok timeParse hstart hparseStart
    simp only [parseTimeRange, startTimeStr_omitEnd, endTimeStr_omitEnd, parseTimeParam_empty,
      hstart', Option.getD_none, Option.getD_some]
    by_cases hle : startTime.instant ≤ now.instant
    · have hnot : ¬ now.utc.before startTime = true :=
        fun hbefore => absurd (of_decide_eq_true hbefore) (Int.not_lt.mpr hle)
      rw [if_pos hle, if_neg hnot]
      rfl
    · have hbefore : now.utc.before startTime = true := decide_eq_true (Int.not_le.mp hle)
      rw [if_neg hle, if_pos hbefore]

end Bounds

theorem parseTimeRange_omit_firstSecond :
    parseTimeRange parseSeconds ⟨3600 * 10 ^ 9, 0⟩ (omitStart firstSecond) =
        .ok (⟨0, 0⟩, ⟨10 ^ 9, 0⟩) ∧
      parseTimeRange parseSeconds ⟨3600 * 10 ^ 9, 0⟩ (omitEnd firstSecond) =
        .ok (⟨0, 0⟩, ⟨3600 * 10 ^ 9, 0⟩) := by
  have hok : parseTimeRange parseSeconds ⟨3600 * 10 ^ 9, 0⟩ firstSecond =
    .ok (⟨0, 0⟩, ⟨10 ^ 9, 0⟩) := rfl
  have hstart : Gives firstSecond ["start_time", "start"] :=
    ⟨"start_time", by decide, "1970-01-01T00:00:00Z", rfl, by decide⟩
  have hend : Gives firstSecond ["end_time", "end"] :=
    ⟨"end", by decide, "1970-01-01T00:00:01Z", rfl, by decide⟩
  exact parseTimeRange_omit parseSeconds _ hstart hend hok

/-- The same window is accepted a day later and a day earlier; without its start the one request is
refused, without its end the other. -/
theorem not_optional_bounds_relax :
    (∃ window, parseTimeRange parseSeconds ⟨86400 * 10 ^ 9, 0⟩ firstSecond = .ok window) ∧
      parseTimeRange parseSeconds ⟨86400 * 10 ^ 9, 0⟩ (omitStart firstSecond) =
        .error "end time cannot be before start time" ∧
    (∃ window, parseTimeRange parseSeconds ⟨-86400 * 10 ^ 9, 0⟩ firstSecond = .ok window) ∧
      parseTimeRange parseSeconds ⟨-86400 * 10 ^ 9, 0⟩ (omitEnd firstSecond) =
        .error "end time cannot be before start time" :=
  ⟨⟨_, rfl⟩, rfl, ⟨_, rfl⟩, rfl⟩

end GpuTel.Api
