import TwinVoice.Voice.Binding
import TwinVoice.Voice.Interleave
import TwinVoice.Analytics.Additivity
import TwinVoice.Maintenance.Lifecycle
import TwinVoice.Maintenance.Closure
import TwinVoice.Maintenance.ResetScope
import TwinVoice.Maintenance.Replanning
import TwinVoice.Edge.Backlog
import TwinVoice.Ingest.States
import TwinVoice.Ingest.Accounting
import TwinVoice.Telemetry.Alarms
import TwinVoice.Sparkplug.Image
import TwinVoice.Lib.Segments
import TwinVoice.Sparkplug.Topics
import TwinVoice.Analytics.Calendar
import TwinVoice.Analytics.Shifts
import TwinVoice.Sparkplug.EdgeNode
import TwinVoice.Analytics.Tariffs
import TwinVoice.Analytics.Kpis
import TwinVoice.Analytics.Rollup
import TwinVoice.Sim.Base
import TwinVoice.Sim.States
import TwinVoice.Sim.Runs
import TwinVoice.Sim.Fleet
import TwinVoice.Twin.Correlation
import TwinVoice.Ingest.EdgePredictions
import TwinVoice.Ingest.Replays
import TwinVoice.Ingest.ExactlyOnce
import TwinVoice.Lib.Filling
import TwinVoice.Pdm.Features
import TwinVoice.Edge.Features
import TwinVoice.Pdm.Scoring
import TwinVoice.Pdm.Agreement
import TwinVoice.Pdm.Scores
import TwinVoice.Pdm.Explanations
import TwinVoice.Pdm.Promotion
import TwinVoice.Lib.Rounding
import TwinVoice.Maintenance.Risk
import TwinVoice.Lib.Grouping
import TwinVoice.Telemetry.Tiers
import TwinVoice.Assets.Aas
import TwinVoice.Assets.Service
import TwinVoice.Assets.RoundTrip
import TwinVoice.Assets.Updates
import TwinVoice.Reports.Firing
import TwinVoice.Reports.Isolation
import TwinVoice.Lib.PowerLaw
import TwinVoice.Sim.Usage
import TwinVoice.Twin.WhatIf
import TwinVoice.Maintenance.Repairs
import TwinVoice.Maintenance.Horizon
import TwinVoice.Lib.Timeline
import TwinVoice.Maintenance.Availability
import TwinVoice.Voice.Roster
import TwinVoice.Maintenance.Conflicts
import TwinVoice.Analytics.Breakdowns
import TwinVoice.Voice.Expiry
import TwinVoice.Lib.Counting
import TwinVoice.Web.Connection
import TwinVoice.Nlu.Fuzzy
import TwinVoice.Nlu.ReadBack
import TwinVoice.Voice.Tools
import TwinVoice.Voice.Resolved
import TwinVoice.Voice.Naming
import TwinVoice.Voice.Settling
import TwinVoice.Analytics.Oee
import TwinVoice.Analytics.Pareto
import TwinVoice.Analytics.Baselines
import TwinVoice.Analytics.EnergyAnomalies
import TwinVoice.Maintenance.Distribution
import TwinVoice.Ingest.AssetMetrics
import TwinVoice.Ingest.Draining
import TwinVoice.Ingest.AlarmEngine
import TwinVoice.Telemetry.Acknowledging
import TwinVoice.Lib.Countdown
import TwinVoice.Sim.Deterministic
import TwinVoice.Sim.Wearing
import TwinVoice.Sim.Coupling
import TwinVoice.Sim.Production
import TwinVoice.Lib.FloatBits
import TwinVoice.Lib.Registers
import TwinVoice.Sim.Modbus
import TwinVoice.Sim.ShiftChanges
import TwinVoice.Lib.Windows
import TwinVoice.Edge.Windows
import TwinVoice.Pdm.Statistics
import TwinVoice.Pdm.FeatureTable
import TwinVoice.Pdm.Benchmark
import TwinVoice.Pdm.Calibration
import TwinVoice.Pdm.RulInterval
import TwinVoice.Twin.FirstPassage
import TwinVoice.Lib.Sequence
import TwinVoice.Pdm.FailureModes
import TwinVoice.Pdm.PredictionQuery
import TwinVoice.Nlu.Buckets
import TwinVoice.Nlu.SpokenTimes
import TwinVoice.Voice.PlantTime
import TwinVoice.Lib.Replace
import TwinVoice.Lib.Tokens
import TwinVoice.Nlu.Words
import TwinVoice.Nlu.SpokenNumbers
import TwinVoice.Voice.WhatIfTime
import TwinVoice.Nlu.OwnNames
import TwinVoice.Lib.Regex
import TwinVoice.Lib.Spacing
import TwinVoice.Nlu.Templates
import TwinVoice.Nlu.TemplateLanguage
import TwinVoice.Lib.FloatText
import TwinVoice.Xai.Narration
import TwinVoice.Xai.Audit
import TwinVoice.Xai.GroundTruth
import TwinVoice.Reports.Summary
import TwinVoice.Xai.Numerals
import TwinVoice.Reports.NumberAudits
import TwinVoice.Reports.Data
import TwinVoice.Reports.Pieces
import TwinVoice.Reports.TemplateAudit
import TwinVoice.Lib.Additions
import TwinVoice.Reports.Builders
import TwinVoice.Reports.PeriodOnly
import TwinVoice.Lib.Choices
import TwinVoice.Xai.Counterfactual
import TwinVoice.Xai.CheapestChange
import TwinVoice.Xai.LiveCounterfactuals
import TwinVoice.Lib.Samples
import TwinVoice.Xai.Concepts
import TwinVoice.Xai.Drift
import TwinVoice.Lib.Curves
import TwinVoice.Xai.Quality
import TwinVoice.Lib.Runs
import TwinVoice.Pdm.AlarmEvents
import TwinVoice.Lib.Quadratics
import TwinVoice.Xai.Attributions
import TwinVoice.Xai.IntegratedGradients
import TwinVoice.Lib.Csv
import TwinVoice.Lib.Json
import TwinVoice.Lib.Xml
import TwinVoice.Maintenance.Export
import TwinVoice.Web.Hub
import TwinVoice.Twin.CommandLoop
import TwinVoice.Lib.MergePatch
import TwinVoice.Assets.TwinSync
import TwinVoice.Maintenance.PredictiveOrders
import TwinVoice.Maintenance.Verdicts
import TwinVoice.Sim.Sensors
import TwinVoice.Edge.Uplink
import TwinVoice.Reports.Generation
import TwinVoice.Sparkplug.Publisher
import TwinVoice.Ingest.Telemetry
import TwinVoice.Nlu.Matching
