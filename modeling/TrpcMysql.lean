import TrpcMysql.Executor.Arguments
import TrpcMysql.Executor.Closed
import TrpcMysql.Executor.Config
import TrpcMysql.Executor.Dynamic
import TrpcMysql.Executor.Failures
import TrpcMysql.Executor.Fixed
import TrpcMysql.Executor.Formatter
import TrpcMysql.Executor.Handles
import TrpcMysql.Executor.InputBinds
import TrpcMysql.Executor.Nulls
import TrpcMysql.Executor.OutputCheck
import TrpcMysql.Executor.Pending
import TrpcMysql.Executor.Regions
import TrpcMysql.Executor.Reuse
import TrpcMysql.Executor.RoundTrip
import TrpcMysql.Executor.Time
import TrpcMysql.Executor.Sessions
import TrpcMysql.Executor.TimeRanges
import TrpcMysql.Manager.OnePool
import TrpcMysql.Manager.Shutdown
import TrpcMysql.Pool.Accounting
import TrpcMysql.Pool.Divisors
import TrpcMysql.Pool.Refinement
import TrpcMysql.Pool.Sharing
import TrpcMysql.Proxy.Agreement
import TrpcMysql.Proxy.Completion
import TrpcMysql.Proxy.Creators
import TrpcMysql.Proxy.Filters
import TrpcMysql.Proxy.Lifecycle
import TrpcMysql.Proxy.Outcomes
import TrpcMysql.Proxy.Serial
import TrpcMysql.Proxy.Stuck
import TrpcMysql.Results.Refinement
import TrpcMysql.Results.Release
