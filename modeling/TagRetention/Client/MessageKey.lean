import TagRetention.Text.Blank

/-!
Message keys. A known display text, blanks around it apart, has a key; any other text stays as it
is.
-/

namespace TagRetention.Client

def messageKeys : List (String × String) := [
  ("retain", "ACTION_RETAIN"),
  ("latestPushedK", "RULE_NAME_1"),
  ("latestPulledN", "RULE_NAME_2"),
  ("nDaysSinceLastPush", "RULE_NAME_3"),
  ("nDaysSinceLastPull", "RULE_NAME_4"),
  ("always", "RULE_NAME_5"),
  ("the most recently pushed # images", "RULE_TEMPLATE_1"),
  ("the most recently pulled # images", "RULE_TEMPLATE_2"),
  ("pushed within the last # days", "RULE_TEMPLATE_3"),
  ("pulled within the last # days", "RULE_TEMPLATE_4"),
  ("COUNT", "UNIT_COUNT"),
  ("DAYS", "UNIT_DAY"),
  ("repoMatches", "REP_SEPARATOR_MATCHES"),
  ("repoExcludes", "REP_SEPARATOR_EXCLUDES"),
  ("matches", "MATCHES"),
  ("excludes", "EXCLUDES"),
  ("withLabels", "WITH"),
  ("withoutLabels", "WITHOUT"),
  ("Repositories", "REPOSITORIES"),
  ("Tags", "TAGS"),
  ("Labels", "LABELS"),
  ("rule is incomplete", "ILLEGAL_RULE"),
  ("an identical rule already exists", "EXISTING_RULE"),
  ("repository exclusion cannot use the ** wildcard", "INVALID_RULE")]

def messageKey (text : String) : String :=
  match messageKeys.lookup (Text.trim text) with
  | some key => "TAG_RETENTION." ++ key
  | none => text

end TagRetention.Client
