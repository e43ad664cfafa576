import Twstools.Common.Run
import Twstools.Common.Entries
import Twstools.Common.Window
import Twstools.Common.Buckets
import Twstools.Common.Separated
import Twstools.Common.Merge
import Twstools.Common.Fault
import Twstools.Common.Maps
import Twstools.Common.Partition
import Twstools.Common.Serve
import Twstools.Common.Attributes
import Twstools.Common.Memory
import Twstools.Common.Segments
import Twstools.Common.Tokens
import Twstools.Common.Places
import Twstools.Common.Weekdays
import Twstools.Common.Groups
import Twstools.Clib.Int
import Twstools.Clib.Decimal
import Twstools.Clib.Strtol
import Twstools.Clib.Double
import Twstools.Clib.Digits
import Twstools.Clib.Time
import Twstools.Assertion
import Twstools.Api.Contract
import Twstools.Api.Order
import Twstools.Pacing.Farms
import Twstools.Pacing.Learning
import Twstools.Pacing.Known
import Twstools.Pacing.Control
import Twstools.Pacing.Vectors
import Twstools.Pacing.God
import Twstools.Pacing.Books
import Twstools.Pacing.Operations
import Twstools.Pacing.Regular
import Twstools.Pacing.Exact
import Twstools.Pacing.Balance
import Twstools.Pacing.Paced
import Twstools.Pacing.Limits
import Twstools.Pacing.Remembered
import Twstools.Pacing.Pause
import Twstools.Xml.Node
import Twstools.Xml.Contract
import Twstools.Xml.HistData
import Twstools.Xml.ContractDetails
import Twstools.Xml.OrderFields
import Twstools.Xml.Order
import Twstools.Xml.NormalForm
import Twstools.Xml.Stream
import Twstools.Xml.Delivery
import Twstools.Xml.Broken
import Twstools.Xml.Blank
import Twstools.Twsdo.GenericRequest
import Twstools.Twsdo.Query
import Twstools.Twsdo.Packet
import Twstools.Twsdo.Clear
import Twstools.Twsdo.Todo
import Twstools.Twsdo.Skipping
import Twstools.Twsdo.Checkout
import Twstools.Twsdo.Model
import Twstools.Twsdo.RateLimit
import Twstools.Twsdo.Finish
import Twstools.Twsdo.Requests
import Twstools.Twsdo.Errors
import Twstools.Twsdo.Callbacks
import Twstools.Twsdo.Loop
import Twstools.Twsdo.Effects
import Twstools.Twsdo.Paths
import Twstools.Twsdo.Output
import Twstools.Twsdo.Config
import Twstools.Twsdo.DataType
import Twstools.Twsdo.OptRows
import Twstools.Twsdo.Sites
import Twstools.Twsdo.WorkFile
import Twstools.Twsdo.ReadFile
import Twstools.Twsdo.Spacing
import Twstools.Xml.Answers
import Twstools.Jobs.Model
import Twstools.Jobs.Frame
import Twstools.Jobs.Turns
import Twstools.Jobs.Calls
import Twstools.Jobs.Runs
import Twstools.Jobs.HistJobs
import Twstools.Jobs.Done
import Twstools.Jobs.Phases
import Twstools.Jobs.Serial
import Twstools.Jobs.Responses
import Twstools.Jobs.Repeat
import Twstools.Jobs.WrongFarm
import Twstools.Jobs.Handshake
import Twstools.Jobs.Deadlines
import Twstools.Jobs.Rejected
import Twstools.Jobs.LateCalls
import Twstools.Orders.Model
import Twstools.Orders.Frame
import Twstools.Orders.Turns
import Twstools.Orders.Upcoming
import Twstools.Orders.Runs
import Twstools.Twsdo.Strategy
import Twstools.Jobs.Strategy
import Twstools.Jobs.ConIds
import Twstools.Jobs.Filing
import Twstools.Orders.Disjoint
import Twstools.Orders.Numbers
import Twstools.Orders.Fresh
import Twstools.Orders.Sent
import Twstools.Orders.Rows
import Twstools.Orders.Delivered
import Twstools.Twsdo.Throttle
import Twstools.Jobs.Pace
import Twstools.Jobs.Executions
import Twstools.Clib.FixedWidth
import Twstools.Clib.Printf
import Twstools.Clib.Strptime
import Twstools.Clib.Strtok
import Twstools.Clib.Calendar
import Twstools.Twsgen.Dates
import Twstools.Twsgen.ReadDates
import Twstools.Twsgen.IsoDate
import Twstools.Twsgen.Durations
import Twstools.Twsgen.Walk
import Twstools.Twsgen.Model
import Twstools.Twsgen.HistCsv
import Twstools.Twsgen.MaxExpiry
import Twstools.Twsgen.Jobs
import Twstools.Twsgen.WhatToShow
import Twstools.Twsgen.Executed
import Twstools.Twsdo.Documents
import Twstools.Jobs.Written
import Twstools.Twsgen.Converted
