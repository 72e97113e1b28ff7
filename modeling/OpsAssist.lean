import OpsAssist.Agent.Escalation
import OpsAssist.Agent.Refusals
import OpsAssist.Agent.Router
import OpsAssist.Api.Actions
import OpsAssist.Api.Chat
import OpsAssist.Api.Documents
import OpsAssist.Api.OneWay
import OpsAssist.Api.Private
import OpsAssist.Api.Recall
import OpsAssist.Api.SameAnswer
import OpsAssist.Api.ServerEvents
import OpsAssist.Api.Tickets
import OpsAssist.Gateway.Agreement
import OpsAssist.Gateway.BreakerHistory
import OpsAssist.Gateway.Concurrency
import OpsAssist.Gateway.DecisionTable
import OpsAssist.Gateway.Egress
import OpsAssist.Gateway.Ledger
import OpsAssist.Gateway.WithoutProvider
import OpsAssist.Knowledge.Covered
import OpsAssist.Knowledge.DocKeys
import OpsAssist.Knowledge.Freshness
import OpsAssist.Knowledge.Fusion
import OpsAssist.Knowledge.Isolation
import OpsAssist.Knowledge.PdfTables
import OpsAssist.Knowledge.Sections
import OpsAssist.Knowledge.Unchanged
import OpsAssist.Policy.AuditChain
import OpsAssist.Policy.Projection
import OpsAssist.Preferences
import OpsAssist.Providers.Anthropic
import OpsAssist.Providers.Completion
import OpsAssist.Quota
import OpsAssist.RateLimit
import OpsAssist.Repointing
import OpsAssist.Sources
import OpsAssist.Tokens
import OpsAssist.Tools.AbsentText
import OpsAssist.Tools.ActionHash
import OpsAssist.Tools.EmployeeNames
import OpsAssist.Tools.Proposals
import OpsAssist.Tools.Tickets
import OpsAssist.Worker
