import FieldRules.Rule.Declare
import FieldRules.Service.Http
import FieldRules.Service.LogContext
import FieldRules.Service.Metrics
import FieldRules.Proofs.Numeral.Canonical
import FieldRules.Proofs.Placeholder.Series
import FieldRules.Proofs.Placeholder.Overlap
import FieldRules.Proofs.Filter.Condition
import FieldRules.Proofs.Filter.IntegerItems
import FieldRules.Proofs.Filter.IntegerMeaning
import FieldRules.Proofs.Rule.Prepared
import FieldRules.Proofs.Validation.Clean
import FieldRules.Proofs.Request.Validated
import FieldRules.Proofs.Filter.Buildable
import FieldRules.Proofs.Search.Compilable
import FieldRules.Proofs.Search.ValidatedCompiles
import FieldRules.Proofs.Validation.Verdict
import FieldRules.Proofs.Validation.Options
import FieldRules.Proofs.Validation.Internal
import FieldRules.Proofs.Validation.SearchCheck
import FieldRules.Proofs.Text.Row
import FieldRules.Proofs.Request.Verdict
import FieldRules.Proofs.Filter.Wording
import FieldRules.Proofs.Text.Balance
import FieldRules.Proofs.Condition.Meaning
import FieldRules.Proofs.Condition.TreeMeaning
import FieldRules.Proofs.Search.ConditionMeaning
import FieldRules.Proofs.Validation.Groups
import FieldRules.Proofs.Validation.FieldMeets
import FieldRules.Proofs.Validation.Conforming
import FieldRules.Proofs.Validation.Fitting
import FieldRules.Proofs.Request.Settled
import FieldRules.Proofs.Favorite.Written
import FieldRules.Proofs.Favorite.Sent
import FieldRules.Proofs.Service.Saving
import FieldRules.Proofs.Rule.Idempotent
import FieldRules.Proofs.Request.Reported
import FieldRules.Proofs.Request.Enforced
import FieldRules.Proofs.Service.Answered
import FieldRules.Proofs.Request.Reordered
import FieldRules.Proofs.Filter.LikePattern
import FieldRules.Proofs.Filter.ListNegation
import FieldRules.Proofs.Filter.TemplateBinding
import FieldRules.Proofs.Filter.EnumBinding
import FieldRules.Proofs.Search.SortOrder
import FieldRules.Proofs.Filter.Granted
import FieldRules.Proofs.Request.PreparedInteger
import FieldRules.Proofs.Validation.Visits
import FieldRules.Proofs.Validation.Isolated
import FieldRules.Proofs.Validation.Location
import FieldRules.Proofs.Validation.GroupErrors
import FieldRules.Proofs.Validation.Kept
import FieldRules.Proofs.Validation.Resolved
import FieldRules.Proofs.Validation.Flaw
import FieldRules.Proofs.Condition.Leaves
import FieldRules.Proofs.Entity.Assignment
import FieldRules.Proofs.Message.Translation
import FieldRules.Proofs.Numeral.Reading
import FieldRules.Proofs.Validation.Reused
